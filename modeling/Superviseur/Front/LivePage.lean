import Superviseur.Api.Snapshot
import Superviseur.Front.BatcherRuns
import Superviseur.Front.LiveValues

/-!
# From the collector to the screen

A page shows a synoptic. Its client asks the server for the points of the widgets; the server sends
their rows and relays what the collector publishes; the page pushes each value it receives to the
widgets of the point, through the batcher, which delivers them from time to time. When the
connection is lost, the client opens another one and asks for the same points again, and the batcher
keeps what it has. The collector goes on meanwhile.

**Once everything is published, sent, received and delivered, every widget was last given the newest
reading of its point** (`shows_newest`), whatever the order of the steps and however often the
connection was lost, as long as the rows are read once the last readings are written or on their
way, and are not sent after newer messages (`Realtime.Fresh`).

The messages of a connection arrive in order, and those of a connection that was lost do not arrive
any more. The points are in the canonical form.
-/

namespace Superviseur

/-! ## The identifiers of a connection -/

/-- The points of the request that is served. -/
def Serving.ids : Serving → List Uuid
  | .idle => []
  | .subscribing new | .reading new => new
  | .sending rows => rows.map (·.pointId)
  | .unsubscribing wanted => wanted

theorem lt_of_mem_newPoints {points new : List Uuid} {rawIds : List String} {id : Uuid}
    (h : newPoints points rawIds = .ok new) (hid : id ∈ new) : id < 2 ^ 128 := by
  rw [newPoints.eq_def] at h
  split at h
  · nomatch h
  · rename_i wanted hwanted
    dsimp only at h
    split at h
    · nomatch h
    · obtain rfl := Except.ok.inj h
      have hmem := List.mem_dedup.mp (List.mem_filter.mp hid).1
      obtain ⟨raw, -, hraw⟩ := mem_of_mapM hwanted hmem
      exact UuidText.read_lt hraw

theorem mem_of_mem_oldPoints {points wanted : List Uuid} {rawIds : List String} {id : Uuid}
    (h : oldPoints points rawIds = .ok wanted) (hid : id ∈ wanted) : id ∈ points := by
  rw [oldPoints] at h
  split at h
  · nomatch h
  · obtain rfl := Except.ok.inj h
    exact of_decide_eq_true (List.mem_filter.mp hid).2

namespace Realtime

variable {batchRows : ℕ} {s t : Realtime} {e : Event}

/-- The identifiers a connection deals with are read of texts: they have 128 bits. -/
structure Wide (s : Realtime) : Prop where
  points : ∀ id ∈ s.points, id < 2 ^ 128
  serving : ∀ id ∈ s.serving.ids, id < 2 ^ 128
  commands : ∀ command ∈ s.commands, ∀ id ∈ command.added, id < 2 ^ 128
  channels : ∀ id ∈ s.channels, id < 2 ^ 128
  messages : ∀ reading ∈ s.sent ++ s.pending, reading.pointId < 2 ^ 128

theorem wide_accept (recorder : Recorder) : (accept recorder).Wide :=
  ⟨nofun, nofun, nofun, nofun, nofun⟩

/-- **Step lemma.** A connection that gives no point up. -/
theorem Wide.step (h : s.Wide) (hstep : s.next batchRows e = some t) : t.Wide := by
  cases step_of_next hstep with
  | @collector event recorder hnext =>
    refine { h with messages := fun reading hreading ↦ ?_ }
    rw [pending.eq_def, ← List.append_assoc, ← List.append_assoc] at hreading
    rcases List.mem_append.mp hreading with hreading | hreading
    · refine h.messages reading ?_
      rwa [pending.eq_def, ← List.append_assoc]
    · rw [delivered.eq_def] at hreading
      split at hreading
      · split at hreading
        · rename_i hchannel
          obtain rfl := List.mem_singleton.mp hreading
          exact h.channels _ hchannel
        · nomatch hreading
      · nomatch hreading
  | refuseSubscribe | noneToAdd | refuseUnsubscribe | noneToRemove => exact h
  | @subscribe rawIds new hserving hnew =>
    have hlt : ∀ id ∈ new, id < 2 ^ 128 := fun id ↦ lt_of_mem_newPoints hnew
    refine { h with serving := hlt, commands := fun command hcommand ↦ ?_ }
    rcases List.mem_append.mp hcommand with hcommand | hcommand
    · exact h.commands command hcommand
    · obtain rfl := List.mem_singleton.mp hcommand
      exact hlt
  | @unsubscribe rawIds wanted hserving hold =>
    refine { h with serving := fun id hid ↦ h.points id ?_, commands := fun command hcommand ↦ ?_ }
    · exact mem_of_mem_oldPoints hold hid
    · rcases List.mem_append.mp hcommand with hcommand | hcommand
      · exact h.commands command hcommand
      · obtain rfl := List.mem_singleton.mp hcommand
        exact nofun
  | @redis command commands hcommands =>
    have hall := h.commands
    rw [hcommands] at hall
    refine { h with
      commands := fun other hother ↦ hall other (List.mem_cons_of_mem _ hother)
      channels := fun id hid ↦ ?_ }
    cases command with
    | subscribe ids =>
      exact (List.mem_append.mp hid).elim (h.channels id) (hall _ (List.mem_cons_self ..) id)
    | unsubscribe ids => exact h.channels id (List.mem_filter.mp hid).1
  | @subscribed new hserving =>
    have hnew := h.serving
    rw [hserving] at hnew
    exact { h with
      points := fun id hid ↦ (List.mem_append.mp hid).elim (h.points id) (hnew id)
      serving := hnew }
  | unsubscribed hserving =>
    exact { h with
      points := fun id hid ↦ h.points id (List.mem_filter.mp hid).1
      serving := nofun }
  | @read new hserving =>
    have hnew := h.serving
    rw [hserving] at hnew
    refine { h with serving := fun id hid ↦ ?_ }
    obtain ⟨row, hrow, rfl⟩ := List.mem_map.mp hid
    obtain ⟨point, hpoint, hrow⟩ := List.mem_filterMap.mp hrow
    obtain ⟨stored, -, rfl⟩ := Option.map_eq_some_iff.mp hrow
    exact hnew point hpoint
  | @send rows i row hserving hrow =>
    have hrows := h.serving
    rw [hserving] at hrows
    refine { h with serving := fun id hid ↦ ?_, messages := fun reading hreading ↦ ?_ }
    · obtain ⟨row, hmem, rfl⟩ := List.mem_map.mp hid
      exact hrows _ (List.mem_map_of_mem (List.mem_of_mem_eraseIdx hmem))
    · rw [pending.eq_def, List.append_assoc, List.mem_append, List.mem_append] at hreading
      rcases hreading with hreading | hreading | hreading
      · exact h.messages reading (List.mem_append_left _ hreading)
      · obtain rfl := List.mem_singleton.mp hreading
        exact hrows _ (List.mem_map_of_mem (List.mem_of_getElem? hrow))
      · exact h.messages reading (List.mem_append_right _ hreading)
  | served hserving => exact { h with serving := nofun }
  | take hrelaying hqueue =>
    have hmessages := h.messages
    rw [pending.eq_def, hrelaying, hqueue] at hmessages
    exact { h with messages := hmessages }
  | relay hrelaying =>
    have hmessages := h.messages
    rw [pending.eq_def, hrelaying, ← List.append_assoc] at hmessages
    exact { h with messages := hmessages }

theorem sent_next (hstep : s.next batchRows e = some t) : s.sent <+: t.sent := by
  cases step_of_next hstep with
  | send | relay => exact List.prefix_append _ _
  | collector | refuseSubscribe | noneToAdd | subscribe | refuseUnsubscribe | noneToRemove
  | unsubscribe | redis | subscribed | unsubscribed | read | served | take =>
    exact List.prefix_refl _

end Realtime

/-! ## What is pushed -/

namespace UpdateBatcher

variable {S : Type} (options : BatcherOptions S) {b : UpdateBatcher S}

/-- The batcher has the samples pushed, and is not destroyed. -/
def Has (pushed : List (String × S)) (b : UpdateBatcher S) : Prop :=
  b.pushed = pushed ∧ b.destroyed = false

theorem Has.plan {pushed : List (String × S)} (h : Has pushed b) : Has pushed (b.plan options) := by
  obtain ⟨cancel, armed, timers, hplan⟩ := plan_eq options b
  rw [hplan]
  exact h

theorem Has.push {pushed : List (String × S)} (h : Has pushed b) (w : String) (s : S) :
    Has (pushed ++ [(w, s)]) (b.push options w s) := by
  obtain ⟨rfl, hlive⟩ := h
  rw [UpdateBatcher.push]
  dsimp only
  rw [if_neg (by rw [hlive]; exact Bool.false_ne_true), mapOf_pushed]
  refine Has.plan options ⟨rfl, ?_⟩
  dsimp only
  rw [mapOf]
  split <;> exact hlive

theorem Has.renderFrom {pushed : List (String × S)} (h : Has pushed b) (now : ℚ)
    (rest : List (String × ℕ)) : Has pushed (renderFrom options now b rest) := by
  refine renderFrom_rule (I := fun b _ ↦ Has pushed b) (J := fun b _ _ _ ↦ Has pushed b) ?_ ?_ ?_ ?_
    ?_ h
  · exact fun h ↦ Has.plan options h
  · exact fun h ↦ h
  · exact fun h _ ↦ h
  · exact fun h _ ↦ h
  · exact fun h _ ↦ h

theorem Has.fires {pushed : List (String × S)} (h : Has pushed b) (timer : ℕ) :
    Has pushed (b.step options (.fires timer)) := by
  rw [step]
  split
  · rw [flush]
    dsimp only
    split
    · exact h
    · refine Has.renderFrom options ?_ _ _
      exact h
  · exact h

theorem Has.returns {pushed : List (String × S)} (h : Has pushed b) :
    Has pushed (b.step options .returns) := by
  rw [step]
  split
  · rw [resume]
    split
    · exact h
    · exact Has.renderFrom options h _ _
  · exact h

theorem Has.pushes {pushed : List (String × S)} (h : Has pushed b) (pushes : List (String × S)) :
    Has (pushed ++ pushes) (b.run options (pushes.map fun e ↦ .push e.1 e.2)) := by
  induction pushes generalizing b pushed with
  | nil =>
    rw [List.append_nil]
    exact h
  | cons e pushes ih =>
    have hrest := ih (h.push options e.1 e.2)
    rw [List.append_assoc] at hrest
    exact hrest

end UpdateBatcher

/-! ## A page -/

/-- The options of the batcher of a viewer. -/
def viewerOptions : BatcherOptions LiveSample := { point := LiveSample.point }

/-- A page, the connection of its client, and the collector. -/
structure LivePage where
  server : Realtime
  /-- The requests for points on their way to the server. -/
  requests : List (List String)
  /-- How many messages of the connection the page has received. -/
  received : ℕ
  batcher : UpdateBatcher LiveSample

namespace LivePage

inductive Event where
  /-- A step of the server, or of the collector. -/
  | server (event : Realtime.Event)
  /-- The server takes a request for points. -/
  | request
  /-- The page receives a message. -/
  | receive
  /-- The clock of the page moves. -/
  | tick (now : ℚ)
  /-- A timer of the batcher fires. -/
  | fires (timer : ℕ)
  /-- A widget has been given a value. -/
  | returns
  /-- The connection is lost, and another one is accepted. -/
  | reconnect

variable (batchRows : ℕ) (doc : Document)

/-- The page once its socket is open. -/
def start (recorder : Recorder) (clock : ℚ) : LivePage where
  server := .accept recorder
  requests := (openViewer doc).client.sent
  received := 0
  batcher := .new clock

/-- One step, where it is possible. -/
def next (page : LivePage) : Event → Option LivePage
  | .server (.subscribe _) | .server (.unsubscribe _) => none
  | .server event =>
    (page.server.next batchRows event).map fun server ↦ { page with server := server }
  | .request => match page.requests with
    | [] => none
    | rawIds :: requests =>
      (page.server.next batchRows (.subscribe rawIds)).map fun server ↦
        { page with server := server, requests := requests }
  | .receive => (page.server.sent[page.received]?).map fun reading ↦ { page with
      received := page.received + 1
      batcher := page.batcher.run viewerOptions
        (((openViewer doc).receive reading.message).map fun e ↦ .push e.1 e.2) }
  | .tick now => some { page with batcher := page.batcher.step viewerOptions (.tick now) }
  | .fires timer => some { page with batcher := page.batcher.step viewerOptions (.fires timer) }
  | .returns => some { page with batcher := page.batcher.step viewerOptions .returns }
  | .reconnect => some { page with
      server := .accept page.server.recorder
      requests := (openViewer doc).client.sent
      received := 0 }

/-- The order of publications, writes, readings and messages on the server. -/
def Fresh (page : LivePage) : Event → Prop
  | .server event => page.server.Fresh event
  | _ => True

abbrev Run : LivePage → List Event → LivePage → Prop :=
  Trace.Path (Trace.Stepping (next batchRows doc) Fresh)

/-- Everything is published, written, sent, received and delivered. -/
structure Quiescent (page : LivePage) : Prop where
  server : page.server.Quiescent
  requests : page.requests = []
  received : page.received = page.server.sent.length
  timers : page.batcher.timers = []
  flushing : page.batcher.flushing = none

/-- The last value that a widget was given of a point. -/
def shown (page : LivePage) (w : WidgetDef) (u : Uuid) : Option LiveSample :=
  (page.batcher.deliveredTo viewerOptions w.id (UuidText.write u)).getLast?

variable {batchRows doc} {texts : Texts} {page page' : LivePage} {e : Event} {w : WidgetDef}
  {u : Uuid}

/-! ## Its connection -/

/-- The connection has made a run of its own, in which it took the requests that are not on their
way. -/
def Connected (batchRows : ℕ) (doc : Document) (page : LivePage) : Prop :=
  ∃ recorder es, Realtime.Run batchRows Realtime.Fresh (.accept recorder) es page.server ∧
    Realtime.requests es ++ page.requests = (openViewer doc).client.sent ∧
    ∀ rawIds, .unsubscribe rawIds ∉ es

/-- What a step does. -/
inductive Step (batchRows : ℕ) (doc : Document) (page : LivePage) : Event → LivePage → Prop
  | server {event : Realtime.Event} {server : Realtime} (hrequest : Realtime.requests [event] = [])
      (hunsubscribe : ∀ rawIds, event ≠ .unsubscribe rawIds)
      (hnext : page.server.next batchRows event = some server) :
      Step batchRows doc page (.server event) { page with server := server }
  | request {rawIds : List String} {requests : List (List String)} {server : Realtime}
      (hrequests : page.requests = rawIds :: requests)
      (hnext : page.server.next batchRows (.subscribe rawIds) = some server) :
      Step batchRows doc page .request { page with server := server, requests := requests }
  | receive {reading : Reading} (hreading : page.server.sent[page.received]? = some reading) :
      Step batchRows doc page .receive { page with
        received := page.received + 1
        batcher := page.batcher.run viewerOptions
          (((openViewer doc).receive reading.message).map fun e ↦ .push e.1 e.2) }
  | tick (now : ℚ) : Step batchRows doc page (.tick now)
      { page with batcher := page.batcher.step viewerOptions (.tick now) }
  | fires (timer : ℕ) : Step batchRows doc page (.fires timer)
      { page with batcher := page.batcher.step viewerOptions (.fires timer) }
  | returns : Step batchRows doc page .returns
      { page with batcher := page.batcher.step viewerOptions .returns }
  | reconnect : Step batchRows doc page .reconnect { page with
      server := .accept page.server.recorder
      requests := (openViewer doc).client.sent
      received := 0 }

theorem step_of_next (h : next batchRows doc page e = some page') :
    Step batchRows doc page e page' := by
  cases e with
  | server event =>
    cases event with
    | subscribe | unsubscribe => nomatch h
    | collector | redis | resume | read | send | served | take | relay =>
      obtain ⟨server, hnext, rfl⟩ := Option.map_eq_some_iff.mp h
      exact .server rfl (fun _ ↦ nofun) hnext
  | request =>
    simp only [next] at h
    split at h
    · nomatch h
    · rename_i hrequests
      obtain ⟨server, hnext, rfl⟩ := Option.map_eq_some_iff.mp h
      exact .request hrequests hnext
  | receive =>
    obtain ⟨reading, hreading, rfl⟩ := Option.map_eq_some_iff.mp h
    exact .receive hreading
  | tick now => exact Option.some.inj h ▸ .tick now
  | fires timer => exact Option.some.inj h ▸ .fires timer
  | returns => exact Option.some.inj h ▸ .returns
  | reconnect => exact Option.some.inj h ▸ .reconnect

theorem connected_accept (recorder : Recorder) (received : ℕ)
    (batcher : UpdateBatcher LiveSample) :
    Connected batchRows doc ⟨.accept recorder, (openViewer doc).client.sent, received, batcher⟩ :=
  ⟨recorder, [], .nil _, rfl, fun _ ↦ nofun⟩

theorem Connected.step (h : Connected batchRows doc page) (hfresh : Fresh page e)
    (hstep : Step batchRows doc page e page') : Connected batchRows doc page' := by
  obtain ⟨recorder, es, hrun, hrequests, hes⟩ := h
  cases hstep with
  | @server event server hrequest hunsubscribe hnext =>
    refine ⟨recorder, es ++ [event], hrun.append (.single ⟨hfresh, hnext⟩), ?_,
      fun rawIds hmem ↦ ?_⟩
    · rw [Realtime.requests.eq_def, List.filterMap_append]
      exact (congrArg (Realtime.requests es ++ · ++ page.requests) hrequest).trans
        (by rw [List.append_nil, hrequests])
    · rcases List.mem_append.mp hmem with hmem | hmem
      · exact hes rawIds hmem
      · exact hunsubscribe rawIds (List.mem_singleton.mp hmem).symm
  | @request rawIds requests server htaken hnext =>
    have hfresh : page.server.Fresh (.subscribe rawIds) := trivial
    refine ⟨recorder, es ++ [.subscribe rawIds], hrun.append (.single ⟨hfresh, hnext⟩), ?_,
      fun other hmem ↦ ?_⟩
    · rw [htaken] at hrequests
      rw [← hrequests, Realtime.requests.eq_def, List.filterMap_append, List.append_assoc]
      rfl
    · rcases List.mem_append.mp hmem with hmem | hmem
      · exact hes other hmem
      · nomatch List.mem_singleton.mp hmem
  | receive | tick | fires | returns => exact ⟨recorder, es, hrun, hrequests, hes⟩
  | reconnect => exact connected_accept _ _ _

theorem Connected.lt (h : Connected batchRows doc page) {reading : Reading}
    (hreading : reading ∈ page.server.sent) : reading.pointId < 2 ^ 128 := by
  obtain ⟨recorder, es, hrun, -, -⟩ := h
  have hwide := hrun.invariant Realtime.Wide (fun h hstep ↦ h.step hstep.2)
    (Realtime.wide_accept recorder)
  exact hwide.messages reading (List.mem_append_left _ hreading)

/-! ## The values that are pushed -/

/-- The last value received of a point is the last one pushed to a widget for it, if it is a number
of JSON. -/
def Passed (w : WidgetDef) (u : Uuid) (page : LivePage) : Prop :=
  ∀ reading, lastOf u (page.server.sent.take page.received) = some reading →
    reading.value.all PyFloat.isFinite = true →
      (page.batcher.pushedTo viewerOptions w.id (UuidText.write u)).getLast? = some reading.sample

theorem snd_of_mem_receive {viewer : Viewer} {reading : Reading} {e : String × LiveSample}
    (h : e ∈ viewer.receive reading.message) : e.2 = reading.sample := by
  obtain ⟨⟨listener, sample⟩, hdispatch, he⟩ := List.mem_flatMap.mp h
  rw [LiveClient.dispatch.eq_def] at hdispatch
  split at hdispatch
  · exact absurd hdispatch List.not_mem_nil
  · obtain ⟨l, -, heq⟩ := List.mem_map.mp hdispatch
    obtain ⟨rfl, rfl⟩ := Prod.mk.inj heq
    cases l with
    | viewer =>
      obtain ⟨id, -, rfl⟩ := List.mem_map.mp he
      rfl
    | trend widget => exact absurd he List.not_mem_nil

theorem getLast?_append_of_forall_eq {α : Type} {xs ys : List α} {a : α} (h : ∀ y ∈ ys, y = a)
    (hmem : a ∈ ys) : (xs ++ ys).getLast? = some a := by
  rw [List.getLast?_append]
  cases hlast : ys.getLast? with
  | none =>
    rw [List.getLast?_eq_none_iff.mp hlast] at hmem
    nomatch hmem
  | some b =>
    rw [h b (List.mem_of_getLast? hlast)]
    rfl

/-- What is kept by every step. -/
structure Valid (batchRows : ℕ) (doc : Document) (w : WidgetDef) (u : Uuid) (page : LivePage) :
    Prop where
  connected : Connected batchRows doc page
  received : page.received ≤ page.server.sent.length
  armed : page.batcher.Armed
  whole : page.batcher.Whole viewerOptions
  live : page.batcher.destroyed = false
  passed : Passed w u page

section

variable (hw : w ∈ doc.widgets) (htype : w.type ∈ pushed) (hu : u < 2 ^ 128)
  (hpoint : w.bind.get "point" = .str (UuidText.write u))

include hw htype hu hpoint

theorem Passed.receive (h : Passed w u page) (hlive : page.batcher.destroyed = false)
    {reading : Reading} (hreading : page.server.sent[page.received]? = some reading)
    (hlt : reading.pointId < 2 ^ 128) : Passed w u { page with
      received := page.received + 1
      batcher := page.batcher.run viewerOptions
        (((openViewer doc).receive reading.message).map fun e ↦ .push e.1 e.2) } := by
  intro last hlast hvalue
  have hpushed := (UpdateBatcher.Has.pushes viewerOptions ⟨rfl, hlive⟩
    ((openViewer doc).receive reading.message)).1
  rw [UpdateBatcher.pushedTo, hpushed, List.filter_append, List.map_append]
  dsimp only at hlast
  rw [List.take_add_one, hreading, Option.toList_some] at hlast
  by_cases hid : reading.pointId = u
  · -- Every value that is pushed for the point is this one.
    subst hid
    rw [lastOf_append_self] at hlast
    obtain rfl := Option.some.inj hlast
    refine getLast?_append_of_forall_eq (fun sample hsample ↦ ?_) (List.mem_map.mpr
      ⟨(w.id, reading.sample), List.mem_filter.mpr
        ⟨mem_receive hw htype hu hpoint rfl hvalue, decide_eq_true ⟨rfl, rfl⟩⟩, rfl⟩)
    obtain ⟨e, he, rfl⟩ := List.mem_map.mp hsample
    exact snd_of_mem_receive (List.mem_filter.mp he).1
  · -- Nothing is pushed for the point.
    rw [lastOf_append_of_ne hid] at hlast
    have hnone : ((openViewer doc).receive reading.message).filter (fun e ↦
        e.1 = w.id ∧ viewerOptions.point e.2 = UuidText.write u) = [] := by
      refine List.filter_eq_nil_iff.mpr fun e he heq ↦ hid ?_
      have htext : UuidText.write reading.pointId = UuidText.write u := by
        rw [← (of_decide_eq_true heq).2, snd_of_mem_receive he]
        rfl
      have hread := UuidText.read_write hlt
      rw [htext, UuidText.read_write hu] at hread
      exact (Option.some.inj hread).symm
    rw [hnone, List.map_nil, List.append_nil]
    exact h last hlast hvalue

/-- **Step lemma.** -/
theorem Valid.step (h : Valid batchRows doc w u page) (hfresh : Fresh page e)
    (hstep : Step batchRows doc page e page') : Valid batchRows doc w u page' := by
  have hconnected := h.connected.step hfresh hstep
  -- A step of the batcher alone.
  have hbatcher : ∀ label, UpdateBatcher.Has page.batcher.pushed
      (page.batcher.step viewerOptions label) →
        Connected batchRows doc { page with batcher := page.batcher.step viewerOptions label } →
          Valid batchRows doc w u
            { page with batcher := page.batcher.step viewerOptions label } := by
    intro label hhas hconnected
    refine ⟨hconnected, h.received, h.armed.step label, h.whole.step label, hhas.2, ?_⟩
    intro reading hreading hvalue
    rw [UpdateBatcher.pushedTo.eq_def, hhas.1]
    exact h.passed reading hreading hvalue
  -- A step of the connection alone, which may send messages.
  have hserver : ∀ {server : Realtime} (requests : List (List String)),
      page.server.sent <+: server.sent →
        Connected batchRows doc { page with server := server, requests := requests } →
          Valid batchRows doc w u { page with server := server, requests := requests } := by
    rintro server requests ⟨later, hlater⟩ hconnected
    refine ⟨hconnected, ?_, h.armed, h.whole, h.live, ?_⟩
    · rw [← hlater, List.length_append]
      exact h.received.trans (Nat.le_add_right _ _)
    · intro reading hreading hvalue
      dsimp only at hreading
      rw [← hlater, List.take_append_of_le_length h.received] at hreading
      exact h.passed reading hreading hvalue
  cases hstep with
  | server _ _ hnext => exact hserver _ (Realtime.sent_next hnext) hconnected
  | request _ hnext => exact hserver _ (Realtime.sent_next hnext) hconnected
  | @receive reading hreading =>
    have hlive := (UpdateBatcher.Has.pushes viewerOptions ⟨rfl, h.live⟩
      ((openViewer doc).receive reading.message)).2
    have hlt := h.connected.lt (List.mem_of_getElem? hreading)
    refine ⟨hconnected, ?_, ?_, ?_, hlive, ?_⟩
    · exact (List.getElem?_eq_some_iff.mp hreading).1
    · exact UpdateBatcher.run_induction viewerOptions UpdateBatcher.Armed.step h.armed _
    · exact UpdateBatcher.run_induction viewerOptions UpdateBatcher.Whole.step h.whole _
    · exact h.passed.receive hw htype hu hpoint h.live hreading hlt
  | tick now => exact hbatcher (.tick now) ⟨rfl, h.live⟩ hconnected
  | fires timer =>
    exact hbatcher (.fires timer) (UpdateBatcher.Has.fires viewerOptions ⟨rfl, h.live⟩ timer)
      hconnected
  | returns =>
    exact hbatcher .returns (UpdateBatcher.Has.returns viewerOptions ⟨rfl, h.live⟩) hconnected
  | reconnect =>
    exact ⟨hconnected, Nat.zero_le _, h.armed, h.whole, h.live, fun _ hlast ↦ nomatch hlast⟩

/-- **From the collector to the screen.** Once all is quiet, a widget of an accepted synoptic, bound
to a point that the server grants, was last given the last reading published of the point. -/
theorem shows_newest (haccepted : doc.Accepted texts)
    (hgranted : u ∈ grant maxSubscriptions [] (asked doc)) {recorder : Recorder} {clock : ℚ}
    {es : List Event} (hrun : Run batchRows doc (start doc recorder clock) es page)
    (hquiet : page.Quiescent) {reading : Reading}
    (hreading : lastOf u page.server.recorder.published = some reading)
    (hvalue : reading.value.all PyFloat.isFinite = true) :
    page.shown w u = some reading.sample := by
  have hstart : Valid batchRows doc w u (start doc recorder clock) :=
    ⟨connected_accept _ _ _, Nat.zero_le _, UpdateBatcher.armed_new clock,
      UpdateBatcher.whole_new viewerOptions clock, rfl, fun _ hlast ↦ nomatch hlast⟩
  have hvalid := hrun.invariant (Valid batchRows doc w u)
    (fun h hstep ↦ h.step hw htype hu hpoint hstep.1 (step_of_next hstep.2)) hstart
  -- The connection has the point, and has sent its newest reading last.
  obtain ⟨recorder, es, hrun, hrequests, hes⟩ := hvalid.connected
  rw [hquiet.requests, List.append_nil] at hrequests
  have hserved : Realtime.HasServed batchRows recorder (openViewer doc).client.sent page.server :=
    ⟨⟨es, hrun.mono fun hstep ↦ ⟨trivial, hstep.2⟩, hrequests, hes⟩, hquiet.server.serving,
      hquiet.server.commands⟩
  have hpoints : u ∈ page.server.points := by
    rw [(points_of_hasServed haccepted hserved).1]
    exact hgranted
  have hserver := hrun.invariant Realtime.Valid (fun h hstep ↦ h.step hstep.1 hstep.2)
    (Realtime.valid_accept recorder)
  have hsent := hserver.dealt u hpoints (by rw [hquiet.server.serving]; exact not_false) reading
    hreading
  rw [Realtime.pending, hquiet.server.relaying, hquiet.server.queue, Option.toList_none,
    List.append_nil, List.append_nil] at hsent
  -- The page has received it, and pushed it last.
  have hpushed := hvalid.passed reading (by rw [hquiet.received, List.take_length]; exact hsent)
    hvalue
  -- The batcher has nothing left: the last value pushed was delivered.
  have hcancel : page.batcher.cancel = none := by
    have htoList := hvalid.armed.timers
    rw [hquiet.timers] at htoList
    exact Option.toList_eq_nil_iff.mp htoList.symm
  have hpending : page.batcher.pending.entries = [] := by
    by_contra hne
    exact hvalid.armed.armed hquiet.flushing hne hcancel
  have hwaiting : page.batcher.waiting [] w.id (UuidText.write u) = [] := by
    rw [UpdateBatcher.waiting, UpdateBatcher.held,
      UpdateBatcher.get?_eq_none_of_entries hpending]
    rfl
  have hlast := (hvalid.whole.idle hquiet.flushing).last hvalid.live w.id (UuidText.write u)
  rw [hwaiting, UpdateBatcher.emptyHand, List.append_nil, List.append_nil] at hlast
  exact hlast.trans hpushed

end

/-! ## A page whose connection is lost -/

instance (page : LivePage) : (e : Event) → Decidable (Fresh page e)
  | .server event => inferInstanceAs (Decidable (page.server.Fresh event))
  | .request | .receive | .tick _ | .fires _ | .returns | .reconnect => .isTrue trivial

instance {page : LivePage} : Decidable page.Quiescent :=
  decidable_of_iff ((page.server.Quiescent ∧ page.requests = [] ∧
      page.received = page.server.sent.length) ∧ page.batcher.timers = [] ∧
        page.batcher.flushing.isNone) <| by
    constructor
    · rintro ⟨⟨hserver, hrequests, hreceived⟩, htimers, hflushing⟩
      exact ⟨hserver, hrequests, hreceived, htimers, Option.isNone_iff_eq_none.mp hflushing⟩
    · rintro ⟨hserver, hrequests, hreceived, htimers, hflushing⟩
      exact ⟨⟨hserver, hrequests, hreceived⟩, htimers, Option.isNone_iff_eq_none.mpr hflushing⟩

/-- The row of the point is received, and the connection is lost. -/
def lost : List Event :=
  .request :: [.redis, .resume, .read, .send 0, .served].map .server ++ [.receive, .reconnect]

/-- A newer reading is published, relayed and written before the rows are read. -/
def renewed : List Realtime.Event :=
  .redis :: .resume :: Realtime.relayed ++ .collector (.record 0) :: Realtime.flushed ++
    [.read, .send 0, .served]

/-- The point is asked for again. -/
def again : List Event :=
  .request :: renewed.map .server ++ [.receive, .receive, .fires 0, .returns]

theorem shows_newest_again : ∃ page, Run 500 (single (UuidText.write 1))
      (start (single (UuidText.write 1)) Realtime.collector 0) (lost ++ again) page ∧
    page.shown (valueWidget "w1" [("point", .str (UuidText.write 1))]) 1 =
      some (Recorder.readingAt 1 2).sample := by
  have hend : (Trace.exec
      (fun page e ↦ if Fresh page e then next 500 (single (UuidText.write 1)) page e else none)
      (start (single (UuidText.write 1)) Realtime.collector 0) (lost ++ again)).map
        (fun page ↦ (decide page.Quiescent, page.server.recorder.published)) =
          some (true, [Recorder.readingAt 1 2]) := by decide +kernel
  obtain ⟨page, hpage, hend⟩ := Option.map_eq_some_iff.mp hend
  obtain ⟨hquiet, hpublished⟩ := Prod.mk.inj hend
  have hrun : Run 500 (single (UuidText.write 1))
      (start (single (UuidText.write 1)) Realtime.collector 0) (lost ++ again) page :=
    .of_exec_checked hpage
  have hread : UuidText.read (UuidText.write 1) = some 1 := UuidText.read_write (by norm_num)
  have haccepted : (single (UuidText.write 1)).Accepted noTexts := accepted_single hread
  refine ⟨page, hrun, shows_newest (List.mem_singleton_self _) (List.mem_cons_self ..)
    (by norm_num) rfl haccepted (by decide +kernel) hrun (of_decide_eq_true hquiet) ?_ rfl⟩
  rw [hpublished]
  rfl

end LivePage

end Superviseur
