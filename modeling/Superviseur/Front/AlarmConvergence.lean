import Superviseur.Front.AlarmWidget
import Superviseur.Library.Trace
import Superviseur.Library.Versions

/-!
# The list catches up

The pages, the answers to acknowledgements and the events come to the list in any order, and each is
written over what the list has, whatever is the more recent. A page or an answer is read by the
server at some moment between the request and its receipt; an event that comes before the first page
is dropped.

The list follows the database as long as an answer is not behind the events: every change that was
stored after the answer was read has its event still to come. It also needs room: while changes are
on their way the list may hold more alarms than the database has, and a row that is cut is lost.
Under these conditions the list shows each alarm in a version that is at most as many changes old as
there are events of it in flight (`Follows`), and in the latest once nothing is in flight
(`converges`).
-/

namespace Superviseur

namespace AlarmList

/-- The identifier of an alarm. -/
def Alarm.key (a : Alarm) : Uuid := a.1.id

/-- The database once the versions `log` have been stored. -/
def tableOf (log : List Alarm) : AlarmTable := log.foldl AlarmTable.store AlarmTable.empty

/-- `_load_alarm`. -/
def loadAlarm (table : AlarmTable) (id : Uuid) : Except ApiFailure ListedAlarm :=
  match table.rows.find? fun a ↦ a.id = id with
  | some alarm => .ok alarm
  | none => .error ⟨some 404, "alarme introuvable"⟩

/-- A request for a page, and what it is answered: a failure, or the page of the database as it was
when so many versions had been stored. -/
structure PageRequest where
  seq : ℕ
  answer : Option (Except String ℕ) := none

/-- A request for an acknowledgement, and what it is answered. The transition itself is a version
stored like any other. -/
structure AckRequest where
  alarmId : Uuid
  answer : Option (Except ApiFailure ℕ) := none

/-- The widget, the database, and what is on its way between them. -/
structure AlarmTraffic where
  /-- The versions of the alarms, in the order they were stored. -/
  log : List Alarm
  widget : AlarmListWidget
  pages : List PageRequest
  acks : List AckRequest
  /-- The events that were published and not yet received. -/
  events : List Alarm
  /-- A page has been shown. -/
  synced : Bool

inductive TrafficLabel
  /-- An alarm is raised or passes to another state; its event is published. -/
  | stored (alarm : Alarm)
  /-- An event is received, the first in flight of its alarm. -/
  | eventReceived (i : ℕ)
  | refresh
  /-- The server answers a request for a page. -/
  | pageAnswered (i : ℕ) (failure : Option String)
  | pageReceived (i : ℕ)
  | acknowledge (alarmId : Uuid)
  /-- The server answers an acknowledgement. -/
  | ackAnswered (i : ℕ) (failure : Option ApiFailure)
  | ackReceived (i : ℕ)
  /-- The connection changes its state. -/
  | live (state : LiveState)
  | destroy

namespace AlarmTraffic

/-- The page of a request, read when `n` versions had been stored. -/
def pageAt (config : AlarmListConfig) (s : AlarmTraffic) (n : ℕ) : List ListedAlarm :=
  listAlarms (tableOf (s.log.take n)) config.states config.path config.maxRows

/-- The widget is `w` now; if it has started a refresh, the request is on its way. -/
def withWidget (s : AlarmTraffic) (w : AlarmListWidget) : AlarmTraffic :=
  { s with
    widget := w
    pages := if w.loadSeq = s.widget.loadSeq then s.pages else s.pages ++ [⟨w.loadSeq, none⟩] }

/-- An answer, at this moment. -/
def answerNow {ε : Type} (s : AlarmTraffic) : Option ε → Except ε ℕ
  | none => .ok s.log.length
  | some failure => .error failure

/-- The event at `i` is received, unless one of the same alarm comes before it. -/
def receiveEvent (config : AlarmListConfig) (s : AlarmTraffic) (i : ℕ) : AlarmTraffic :=
  match s.events[i]? with
  | none => s
  | some event =>
    if ∀ a ∈ s.events.take i, a.key ≠ event.key then
      { s with
        events := s.events.eraseIdx i
        widget := s.widget.applyEvent config event.1 }
    else s

def receivePage (config : AlarmListConfig) (s : AlarmTraffic) (i : ℕ) : AlarmTraffic :=
  match s.pages[i]? with
  | some ⟨seq, some (.ok n)⟩ =>
    { s with
      pages := s.pages.eraseIdx i
      widget := s.widget.refreshed config seq (.ok (s.pageAt config n))
      synced := s.synced || decide (seq = s.widget.loadSeq) && !s.widget.destroyed }
  | some ⟨seq, some (.error text)⟩ =>
    { s with
      pages := s.pages.eraseIdx i
      widget := s.widget.refreshed config seq (.error text) }
  | _ => s

def receiveAck (config : AlarmListConfig) (s : AlarmTraffic) (i : ℕ) : AlarmTraffic :=
  match s.acks[i]? with
  | some ⟨alarmId, some answer⟩ =>
    let answer := match answer with
      | .ok n => loadAlarm (tableOf (s.log.take n)) alarmId
      | .error failure => .error failure
    { s with acks := s.acks.eraseIdx i }.withWidget (s.widget.acknowledged config alarmId answer)
  | _ => s

def step (config : AlarmListConfig) (s : AlarmTraffic) : TrafficLabel → AlarmTraffic
  | .stored alarm => { s with log := s.log ++ [alarm], events := s.events ++ [alarm] }
  | .eventReceived i => s.receiveEvent config i
  | .refresh => s.withWidget s.widget.refresh
  | .pageAnswered i failure =>
    { s with pages := s.pages.modify i fun r ↦
        { r with answer := r.answer <|> some (s.answerNow failure) } }
  | .pageReceived i => s.receivePage config i
  | .acknowledge alarmId =>
    match s.widget.acknowledge alarmId with
    | none => s
    | some w => { s with widget := w, acks := s.acks ++ [⟨alarmId, none⟩] }
  | .ackAnswered i failure =>
    { s with acks := s.acks.modify i fun r ↦
        { r with answer := r.answer <|> some (s.answerNow failure) } }
  | .ackReceived i => s.receiveAck config i
  | .live state => s.withWidget (s.widget.onState state)
  | .destroy => { s with widget := s.widget.destroy }

/-- `render`: the widget is there, and its first refresh on its way. -/
def opened (log : List Alarm) : AlarmTraffic where
  log := log
  widget := ({} : AlarmListWidget).refresh
  pages := [⟨1, none⟩]
  acks := []
  events := []
  synced := false

/-- Nothing is in flight. -/
def Quiet (s : AlarmTraffic) : Prop := s.pages = [] ∧ s.acks = [] ∧ s.events = []

/-- Fewer than `maxRows` alarms match the filter. -/
def Few (config : AlarmListConfig) (s : AlarmTraffic) : Prop :=
  (matching config (tableOf s.log)).length < config.maxRows

/-- **The list has the alarms that match the filter**, in their latest state, and no other. -/
def Current (config : AlarmListConfig) (s : AlarmTraffic) : Prop :=
  s.widget.loaded = true ∧
    ∀ a, a ∈ s.widget.alarms ↔ a ∈ matching config (tableOf s.log)

/-! ## Conditions -/

/-- What the list shows of an alarm that is in its version `m` changes before the latest. -/
def shown (config : AlarmListConfig) (log : List Alarm) (id : Uuid) (m : ℕ) : Option ListedAlarm :=
  (Versions.back Alarm.key log id m).bind fun a ↦ incoming config a.1

/-- The list may show `row` of the alarm: the latest version does, or one whose next changes have
their events still to come. -/
def InTime (config : AlarmListConfig) (s : AlarmTraffic) (id : Uuid) (row : Option ListedAlarm) :
    Prop :=
  ∃ m ≤ (Versions.ofKey Alarm.key s.events id).length, shown config s.log id m = row

/-- The rows that the list loses when an alarm is applied. -/
def cutBy (config : AlarmListConfig) (s : AlarmTraffic) (alarm : ListedAlarm) : List ListedAlarm :=
  (sortAlarms ((s.widget.alarms.filter fun a ↦ a.id ≠ alarm.id) ++
    (incoming config alarm).toList)).drop config.maxRows

/-- A page or an answer that is applied is not behind the events, and a row that is cut is not
missed. -/
def KeepsUp (config : AlarmListConfig) (s : AlarmTraffic) : TrafficLabel → Prop
  | .eventReceived i => s.synced = true → ∀ event, s.events[i]? = some event →
      ∀ a ∈ s.cutBy config event.1, (s.receiveEvent config i).InTime config a.id none
  | .pageReceived i => ∀ n, s.pages[i]? = some ⟨s.widget.loadSeq, some (.ok n)⟩ →
      ∀ id, s.InTime config id (shown config (s.log.take n) id 0)
  | .ackReceived i => s.synced = true → ∀ alarmId n alarm,
      s.acks[i]? = some ⟨alarmId, some (.ok n)⟩ →
        loadAlarm (tableOf (s.log.take n)) alarmId = .ok alarm →
          s.InTime config alarmId (incoming config alarm) ∧
            ∀ a ∈ s.cutBy config alarm, s.InTime config a.id none
  | _ => True

/-- A step from a database of few matching alarms, which keeps up. -/
def Following (config : AlarmListConfig) (s : AlarmTraffic) (label : TrafficLabel)
    (t : AlarmTraffic) : Prop :=
  s.Few config ∧ s.KeepsUp config label ∧ s.step config label = t

/-! ## Rows -/

section Rows

variable {config : AlarmListConfig} {log : List Alarm} {list : List ListedAlarm}
  {alarm a : ListedAlarm} {id : Uuid} {row : Option ListedAlarm} {m : ℕ}

/-- The list shows `row` of the alarm. -/
def Shows (list : List ListedAlarm) (id : Uuid) (row : Option ListedAlarm) : Prop :=
  ∀ a : ListedAlarm, a.id = id → (a ∈ list ↔ row = some a)

theorem incoming_eq_some : incoming config alarm = some a ↔
    a = alarm ∧ «matches» alarm config.filter = true := by
  rw [incoming]
  split
  · rw [Option.some.injEq, eq_comm]
    exact (and_iff_left ‹_›).symm
  · exact iff_of_false (by simp) (fun h ↦ absurd h.2 ‹_›)

theorem mem_matching_tableOf (config : AlarmListConfig) (log : List Alarm) (a : ListedAlarm) :
    a ∈ matching config (tableOf log) ↔ shown config log a.id 0 = some a := by
  induction log using List.reverseRecOn with
  | nil => exact iff_of_false List.not_mem_nil (by simp [shown, Versions.back, Versions.ofKey])
  | append_singleton log x ih =>
    rw [tableOf, List.foldl_append, List.foldl_cons, List.foldl_nil, matching_store,
      List.mem_append, List.mem_filter, decide_eq_true_iff, Option.mem_toList]
    by_cases hid : x.key = a.id
    · have hlatest : shown config (log ++ [x]) a.id 0 = incoming config x.1 := by
        rw [shown, ← hid, Versions.back_concat_self, Option.bind_some]
      rw [hlatest]
      exact or_iff_right fun h ↦ h.2 hid.symm
    · have hback : shown config (log ++ [x]) a.id 0 = shown config log a.id 0 := by
        rw [shown, Versions.back, Versions.ofKey_append, Versions.ofKey_singleton_of_ne hid,
          List.append_nil]
        rfl
      rw [hback, ← ih]
      refine ⟨?_, fun h ↦ .inl ⟨h, fun h ↦ hid h.symm⟩⟩
      rintro (⟨h, -⟩ | h)
      · exact h
      · exact absurd (congrArg ListedAlarm.id (incoming_eq_some.mp h).1).symm hid

/-- A list that is cut shows nothing of the alarms of the rows cut, and the same of the others. -/
theorem shows_take (hnodup : (list.map ListedAlarm.id).Nodup) (k : ℕ) (h : Shows list id row) :
    Shows (list.take k) id row ∨
      (∃ a ∈ list.drop k, a.id = id) ∧ Shows (list.take k) id none := by
  rw [← List.take_append_drop k list] at hnodup h
  by_cases hcut : ∃ a ∈ list.drop k, a.id = id
  · obtain ⟨b, hb, hid⟩ := hcut
    refine .inr ⟨⟨b, hb, hid⟩, fun a ha ↦ iff_of_false (fun hmem ↦ ?_) (by simp)⟩
    rw [List.map_append, List.nodup_append] at hnodup
    exact hnodup.2.2 _ (List.mem_map_of_mem hmem) _ (List.mem_map_of_mem hb) (ha.trans hid.symm)
  · refine .inl fun a ha ↦ ?_
    rw [← h a ha, List.mem_append]
    exact ⟨.inl, fun hmem ↦ hmem.resolve_right fun hmem ↦ hcut ⟨a, hmem, ha⟩⟩

theorem nodup_incoming (hnodup : (list.map ListedAlarm.id).Nodup) (alarm : ListedAlarm) :
    (((list.filter fun a ↦ a.id ≠ alarm.id) ++ (incoming config alarm).toList).map
      ListedAlarm.id).Nodup := by
  rw [List.map_append, List.nodup_append]
  refine ⟨hnodup.sublist (List.filter_sublist.map _), ?_, ?_⟩
  · cases incoming config alarm with
    | none => exact List.nodup_nil
    | some a => exact List.nodup_singleton _
  · intro i hi j hj
    obtain ⟨a, ha, rfl⟩ := List.mem_map.mp hi
    obtain ⟨b, hb, rfl⟩ := List.mem_map.mp hj
    rw [(incoming_eq_some.mp (Option.mem_toList.mp hb)).1]
    simpa using (List.mem_filter.mp ha).2

/-- **What an alarm that is applied changes**: its own row, and those that are cut. -/
theorem shows_applyAlarm (hnodup : (list.map ListedAlarm.id).Nodup) (alarm : ListedAlarm)
    (h : Shows list id row) :
    Shows (applyAlarm config.filter config.maxRows list alarm) id
        (if alarm.id = id then incoming config alarm else row) ∨
      (∃ a ∈ (sortAlarms ((list.filter fun a ↦ a.id ≠ alarm.id) ++
        (incoming config alarm).toList)).drop config.maxRows, a.id = id) ∧
        Shows (applyAlarm config.filter config.maxRows list alarm) id none := by
  have hsorted := sortAlarms_perm ((list.filter fun a ↦ a.id ≠ alarm.id) ++
    (incoming config alarm).toList)
  rw [applyAlarm_eq]
  refine shows_take (((hsorted.map _).nodup_iff).mpr (nodup_incoming hnodup alarm)) _ fun a ha ↦ ?_
  rw [hsorted.mem_iff, List.mem_append, List.mem_filter, decide_eq_true_iff, Option.mem_toList]
  by_cases hid : alarm.id = id
  · rw [if_pos hid]
    exact or_iff_right fun h ↦ h.2 (ha.trans hid.symm)
  · rw [if_neg hid, ← h a ha]
    refine ⟨?_, fun h ↦ .inl ⟨h, fun heq ↦ hid (heq.symm.trans ha)⟩⟩
    rintro (⟨h, -⟩ | h)
    · exact h
    · rw [(incoming_eq_some.mp h).1] at ha
      exact absurd ha hid

theorem shows_page {table : AlarmTable} (h : (matching config table).length < config.maxRows)
    (hrow : ∀ a : ListedAlarm, a.id = id → (a ∈ matching config table ↔ row = some a)) :
    Shows ((sortAlarms (listAlarms table config.states config.path config.maxRows)).take
      config.maxRows) id row := by
  have hperm := List.perm_insertionSort (fun a b ↦ serverKey a ≤ serverKey b)
    (matching config table)
  have hpage : listAlarms table config.states config.path config.maxRows =
      (matching config table).insertionSort fun a b ↦ serverKey a ≤ serverKey b := by
    rw [listAlarms_eq]
    exact List.take_of_length_le (by rw [hperm.length_eq]; exact h.le)
  intro a ha
  rw [hpage, List.take_of_length_le, (sortAlarms_perm _).mem_iff, hperm.mem_iff]
  · exact hrow a ha
  · rw [(sortAlarms_perm _).length_eq, hperm.length_eq]
    exact h.le

end Rows

/-! ## The list follows the database -/

/-- The list is at most as late as the events in flight. -/
structure Follows (config : AlarmListConfig) (s : AlarmTraffic) : Prop where
  announced : Versions.Announced Alarm.key s.log s.events
  nodup : (s.widget.alarms.map ListedAlarm.id).Nodup
  /-- A page was read from a database of few matching alarms. -/
  pages : ∀ request ∈ s.pages, ∀ n, request.answer = some (.ok n) → n ≤ s.log.length ∧
    (matching config (tableOf (s.log.take n))).length < config.maxRows
  loaded : s.synced = true → s.widget.loaded = true
  rows : s.synced = true → s.widget.destroyed = false →
    ∀ id, ∃ row, s.InTime config id row ∧ Shows s.widget.alarms id row

section Follows

variable {config : AlarmListConfig} {s t : AlarmTraffic} {alarm : Alarm} {id : Uuid}
  {row : Option ListedAlarm} {w : AlarmListWidget} {i : ℕ}

theorem InTime.stored (h : s.InTime config id row) (alarm : Alarm) :
    InTime config { s with log := s.log ++ [alarm], events := s.events ++ [alarm] } id row := by
  obtain ⟨m, hm, hrow⟩ := h
  refine ⟨(Versions.ofKey Alarm.key [alarm] id).length + m, ?_, ?_⟩
  · rw [Versions.ofKey_append, List.length_append]
    omega
  · rw [shown, Versions.back_append]
    exact hrow

theorem Follows.stored (h : Follows config s) (alarm : Alarm) :
    Follows config { s with log := s.log ++ [alarm], events := s.events ++ [alarm] } where
  announced := h.announced.concat alarm
  nodup := h.nodup
  pages := by
    intro request hrequest n hn
    obtain ⟨hle, hfew⟩ := h.pages request hrequest n hn
    refine ⟨by rw [List.length_append]; omega, ?_⟩
    rwa [List.take_append_of_le_length hle]
  loaded := h.loaded
  rows := by
    intro hsynced hlive id
    obtain ⟨row, hrow, hshows⟩ := h.rows hsynced hlive id
    exact ⟨row, hrow.stored alarm, hshows⟩

theorem Follows.frame (h : Follows config s) (hlog : t.log = s.log) (hevents : t.events = s.events)
    (hsynced : t.synced = s.synced) (halarms : t.widget.alarms = s.widget.alarms)
    (hloaded : s.widget.loaded = true → t.widget.loaded = true)
    (hlive : t.widget.destroyed = false → s.widget.destroyed = false)
    (hpages : ∀ request ∈ t.pages, ∀ n, request.answer = some (.ok n) → request ∈ s.pages ∨
      n = s.log.length ∧ s.Few config) : Follows config t where
  announced := by rw [hlog, hevents]; exact h.announced
  nodup := by rw [halarms]; exact h.nodup
  pages := by
    intro request hrequest n hn
    rw [hlog]
    rcases hpages request hrequest n hn with hold | ⟨rfl, hfew⟩
    · exact h.pages request hold n hn
    · exact ⟨le_rfl, by rwa [List.take_length]⟩
  loaded := by
    rw [hsynced]
    exact fun hs ↦ hloaded (h.loaded hs)
  rows := by
    rw [hsynced, halarms]
    intro hs hl id
    obtain ⟨row, ⟨m, hm, hrow⟩, hshows⟩ := h.rows hs (hlive hl) id
    exact ⟨row, ⟨m, by rwa [hevents], by rwa [hlog]⟩, hshows⟩

theorem events_eq {event : Alarm} (hi : s.events[i]? = some event) :
    s.events = s.events.take i ++ event :: s.events.drop (i + 1) := by
  obtain ⟨hlt, hget⟩ := List.getElem?_eq_some_iff.mp hi
  rw [← hget, List.cons_getElem_drop_succ, List.take_append_drop]

/-- **An event is received.** The list then shows the version of the event, and of the other alarms
what it showed. -/
theorem Follows.receiveEvent (h : Follows config s) (hkeeps : s.KeepsUp config (.eventReceived i)) :
    Follows config (s.receiveEvent config i) := by
  rw [KeepsUp] at hkeeps
  rw [AlarmTraffic.receiveEvent] at hkeeps ⊢
  cases hi : s.events[i]? with
  | none => exact h
  | some event =>
    rw [hi] at hkeeps
    dsimp only at hkeeps ⊢
    by_cases hfirst : ∀ a ∈ s.events.take i, a.key ≠ event.key
    swap
    · rw [if_neg hfirst]
      exact h
    rw [if_pos hfirst] at hkeeps ⊢
    have hsplit := events_eq hi
    have hannounced := h.announced
    rw [hsplit] at hannounced
    have hrest : s.events.eraseIdx i = s.events.take i ++ s.events.drop (i + 1) :=
      List.eraseIdx_eq_take_drop_succ ..
    refine ⟨?_, ?_, h.pages, ?_, ?_⟩
    · rw [hrest]
      exact hannounced.deliver hfirst
    · rw [AlarmListWidget.applyEvent]
      split
      · exact h.nodup
      · exact nodup_applyAlarm h.nodup
    · intro hsynced
      rw [AlarmListWidget.applyEvent]
      split <;> exact h.loaded hsynced
    · intro hsynced hlive id
      have hdestroyed : s.widget.destroyed = false := by
        rw [AlarmListWidget.applyEvent] at hlive
        split at hlive <;> exact hlive
      obtain ⟨row, ⟨m, hm, hrow⟩, hshows⟩ := h.rows hsynced hdestroyed id
      have happly : s.widget.applyEvent config event.1 = { s.widget with
          alarms := applyAlarm config.filter config.maxRows s.widget.alarms event.1 } := by
        rw [AlarmListWidget.applyEvent, if_neg]
        simp [hdestroyed, h.loaded hsynced]
      have hcut := hkeeps hsynced event rfl
      rw [happly] at hcut ⊢
      rcases shows_applyAlarm h.nodup event.1 hshows with happlied | ⟨⟨a, ha, rfl⟩, hnone⟩
      · refine ⟨_, ?_, happlied⟩
        by_cases hid : event.1.id = id
        · -- the version of the event
          subst hid
          rw [if_pos rfl]
          refine ⟨_, le_rfl, ?_⟩
          dsimp only
          rw [hrest]
          have hback := hannounced.back_next hfirst
          exact congrArg (fun version ↦ version.bind fun a : Alarm ↦ incoming config a.1) hback
        · rw [if_neg hid]
          refine ⟨m, ?_, hrow⟩
          have hother : Alarm.key event ≠ id := hid
          dsimp only
          rw [hsplit, Versions.Announced.ofKey_deliver_of_ne hother] at hm
          rwa [hrest]
      · exact ⟨none, hcut a ha, hnone⟩

/-- **A page is received.** -/
theorem Follows.receivePage (h : Follows config s) (hkeeps : s.KeepsUp config (.pageReceived i)) :
    Follows config (s.receivePage config i) := by
  rw [KeepsUp] at hkeeps
  rw [AlarmTraffic.receivePage]
  have herase : ∀ request ∈ s.pages.eraseIdx i, request ∈ s.pages :=
    fun _ hmem ↦ List.mem_of_mem_eraseIdx hmem
  split
  case h_1 seq n hi =>
    by_cases hignored : seq ≠ s.widget.loadSeq ∨ s.widget.destroyed = true
    · -- a page of an earlier refresh, or of a widget that has gone
      have hwidget (items : List ListedAlarm) :
          s.widget.refreshed config seq (.ok items) = s.widget := by
        rw [AlarmListWidget.refreshed, if_pos hignored]
      have hsynced : (s.synced || decide (seq = s.widget.loadSeq) && !s.widget.destroyed)
          = s.synced := by
        rcases hignored with hseq | hdestroyed
        · rw [decide_eq_false hseq, Bool.false_and, Bool.or_false]
        · rw [hdestroyed, Bool.not_true, Bool.and_false, Bool.or_false]
      rw [hwidget, hsynced]
      exact h.frame rfl rfl rfl rfl id id fun request hr _ _ ↦ .inl (herase request hr)
    · rw [not_or, not_not] at hignored
      obtain ⟨rfl, hlive⟩ := hignored
      have hpage := h.pages _ (List.mem_of_getElem? hi) n rfl
      have hintime := hkeeps n hi
      have hshows := fun id ↦ shows_page hpage.2 fun a (ha : a.id = id) ↦
        ha ▸ mem_matching_tableOf config (s.log.take n) a
      rw [AlarmListWidget.refreshed, if_neg (by simp [hlive])]
      refine ⟨h.announced, ?_, fun request hr ↦ h.pages request (herase request hr),
        fun _ ↦ rfl, fun _ _ id ↦ ⟨_, hintime id, hshows id⟩⟩
      refine List.Nodup.sublist ((List.take_sublist _ _).map _) ?_
      rw [((sortAlarms_perm _).map _).nodup_iff, pageAt, listAlarms_eq]
      refine List.Nodup.sublist ((List.take_sublist _ _).map _) ?_
      rw [((List.perm_insertionSort _ _).map _).nodup_iff]
      exact nodup_matching config _
  case h_2 seq text hi =>
    have halarms : (s.widget.refreshed config seq (.error text)).alarms = s.widget.alarms ∧
        (s.widget.loaded = true →
          (s.widget.refreshed config seq (.error text)).loaded = true) ∧
        (s.widget.refreshed config seq (.error text)).destroyed = s.widget.destroyed := by
      rw [AlarmListWidget.refreshed]
      split
      · exact ⟨rfl, id, rfl⟩
      · exact ⟨rfl, fun _ ↦ rfl, rfl⟩
    exact h.frame rfl rfl rfl halarms.1 halarms.2.1 (fun hlive ↦ halarms.2.2.symm.trans hlive)
      fun request hr _ _ ↦ .inl (herase request hr)
  case h_3 => exact h

theorem Follows.withWidget (h : Follows config s) (hnodup : (w.alarms.map ListedAlarm.id).Nodup)
    (hloaded : s.widget.loaded = true → w.loaded = true)
    (hrows : s.synced = true → w.destroyed = false →
      ∀ id, ∃ row, s.InTime config id row ∧ Shows w.alarms id row) :
    Follows config (s.withWidget w) where
  announced := h.announced
  nodup := hnodup
  pages := by
    intro request hrequest n hn
    rw [AlarmTraffic.withWidget] at hrequest
    dsimp only at hrequest
    split at hrequest
    · exact h.pages request hrequest n hn
    · rcases List.mem_append.mp hrequest with hrequest | hrequest
      · exact h.pages request hrequest n hn
      · rw [List.mem_singleton.mp hrequest] at hn
        cases hn
  loaded := fun hsynced ↦ hloaded (h.loaded hsynced)
  rows := hrows

theorem id_of_loadAlarm {table : AlarmTable} {alarm : ListedAlarm}
    (h : loadAlarm table id = .ok alarm) : alarm.id = id := by
  rw [loadAlarm] at h
  split at h
  · rename_i hfind
    obtain rfl := Except.ok.inj h
    simpa using List.find?_some hfind
  · cases h

/-- **An acknowledgement is answered.** -/
theorem Follows.receiveAck (h : Follows config s) (hkeeps : s.KeepsUp config (.ackReceived i)) :
    Follows config (s.receiveAck config i) := by
  rw [KeepsUp] at hkeeps
  rw [AlarmTraffic.receiveAck]
  split
  case h_2 => exact h
  case h_1 alarmId answer hi =>
    have hacks : Follows config { s with acks := s.acks.eraseIdx i } :=
      h.frame rfl rfl rfl rfl id id fun _ hr _ _ ↦ .inl hr
    dsimp only
    generalize hload : (match answer with
      | .ok n => loadAlarm (tableOf (s.log.take n)) alarmId
      | .error failure => .error failure) = result
    have hloaded : (s.widget.acknowledged config alarmId result).loaded = s.widget.loaded := by
      unfold AlarmListWidget.acknowledged
      dsimp only
      split
      · rfl
      · split <;> rfl
    have hdestroyed : (s.widget.acknowledged config alarmId result).destroyed
        = s.widget.destroyed := by
      unfold AlarmListWidget.acknowledged
      dsimp only
      split
      · rfl
      · split <;> rfl
    -- the list is what it was, or has the alarm applied
    have halarms : (s.widget.acknowledged config alarmId result).alarms = s.widget.alarms ∨
        ∃ alarm, result = .ok alarm ∧ (s.widget.acknowledged config alarmId result).alarms =
          applyAlarm config.filter config.maxRows s.widget.alarms alarm := by
      unfold AlarmListWidget.acknowledged
      dsimp only
      split
      · exact .inl rfl
      · cases result with
        | ok alarm => exact .inr ⟨alarm, rfl, rfl⟩
        | error failure => exact .inl rfl
    refine hacks.withWidget ?_ (fun hl ↦ hloaded.trans hl) ?_
    · rcases halarms with hsame | ⟨alarm, -, happlied⟩
      · rw [hsame]
        exact h.nodup
      · rw [happlied]
        exact nodup_applyAlarm h.nodup
    · intro hsynced hlive id
      obtain ⟨row, hrow, hshows⟩ := h.rows hsynced (hdestroyed.symm.trans hlive) id
      rcases halarms with hsame | ⟨alarm, hok, happlied⟩
      · rw [hsame]
        exact ⟨row, hrow, hshows⟩
      · rw [happlied]
        cases answer with
        | error failure =>
          rw [hok] at hload
          cases hload
        | ok n =>
          obtain ⟨hintime, hcut⟩ := hkeeps hsynced alarmId n alarm hi (hload.trans hok)
          have hid := id_of_loadAlarm (hload.trans hok)
          rcases shows_applyAlarm h.nodup alarm hshows with happlied | ⟨⟨a, ha, rfl⟩, hnone⟩
          · refine ⟨_, ?_, happlied⟩
            by_cases heq : alarm.id = id
            · rw [if_pos heq, ← heq, hid]
              exact hintime
            · rw [if_neg heq]
              exact hrow
          · exact ⟨none, hcut a ha, hnone⟩

/-- **One step.** -/
theorem Follows.step (h : Follows config s) {label : TrafficLabel} (hfew : s.Few config)
    (hkeeps : s.KeepsUp config label) : Follows config (s.step config label) := by
  cases label with
  | stored alarm => exact h.stored alarm
  | eventReceived i => exact h.receiveEvent hkeeps
  | refresh => exact h.withWidget h.nodup id h.rows
  | pageAnswered i failure =>
    refine h.frame rfl rfl rfl rfl id id fun request hr n hn ↦ ?_
    rw [AlarmTraffic.step] at hr
    obtain ⟨j, hj⟩ := List.mem_iff_getElem?.mp hr
    dsimp only at hj
    rw [List.getElem?_modify, Option.map_eq_map, Option.map_eq_some_iff] at hj
    obtain ⟨earlier, hearlier, rfl⟩ := hj
    by_cases hij : i = j
    · rw [if_pos hij] at hn ⊢
      obtain ⟨seq, answer⟩ := earlier
      cases answer with
      | some answer => exact .inl (List.mem_of_getElem? hearlier)
      | none =>
        -- the page is read now
        cases failure with
        | none => exact .inr ⟨(Except.ok.inj (Option.some.inj hn)).symm, hfew⟩
        | some text => cases hn
    · rw [if_neg hij]
      exact .inl (List.mem_of_getElem? hearlier)
  | pageReceived i => exact h.receivePage hkeeps
  | acknowledge alarmId =>
    rw [AlarmTraffic.step]
    cases hsent : s.widget.acknowledge alarmId with
    | none => exact h
    | some w =>
      rw [AlarmListWidget.acknowledge] at hsent
      split at hsent
      · cases hsent
      · obtain rfl := Option.some.inj hsent
        exact h.frame rfl rfl rfl rfl id id fun _ hr _ _ ↦ .inl hr
  | ackAnswered i failure => exact h.frame rfl rfl rfl rfl id id fun _ hr _ _ ↦ .inl hr
  | ackReceived i => exact h.receiveAck hkeeps
  | live state =>
    have hwidget : (s.widget.onState state).alarms = s.widget.alarms ∧
        (s.widget.onState state).loaded = s.widget.loaded ∧
        (s.widget.onState state).destroyed = s.widget.destroyed := by
      rw [AlarmListWidget.onState]
      dsimp only
      split
      · exact ⟨rfl, rfl, rfl⟩
      · split <;> exact ⟨rfl, rfl, rfl⟩
    obtain ⟨halarms, hloaded, hdestroyed⟩ := hwidget
    refine h.withWidget (by rw [halarms]; exact h.nodup) (fun hl ↦ hloaded.trans hl) ?_
    rw [halarms, hdestroyed]
    exact h.rows
  | destroy => exact h.frame rfl rfl rfl rfl id (fun hl ↦ by cases hl) fun _ hr _ _ ↦ .inl hr

end Follows

/-! ## Runs -/

section Run

variable {config : AlarmListConfig} {log : List Alarm} {s : AlarmTraffic} {id : Uuid} {n : ℕ}

instance : Decidable (s.Few config) :=
  inferInstanceAs (Decidable ((matching config (tableOf s.log)).length < config.maxRows))

theorem InTime.latest (h : s.log.length ≤ n) (id : Uuid) :
    s.InTime config id (shown config (s.log.take n) id 0) :=
  ⟨0, Nat.zero_le _, by rw [List.take_of_length_le h]⟩

theorem Follows.opened (config : AlarmListConfig) (log : List Alarm) :
    Follows config (opened log) where
  announced := Versions.Announced.nil log
  nodup := List.nodup_nil
  pages := by
    intro request hrequest n hn
    rw [List.mem_singleton.mp hrequest] at hn
    cases hn
  loaded := fun h ↦ Bool.noConfusion h
  rows := fun h ↦ Bool.noConfusion h

theorem Follows.current (h : Follows config s) (hquiet : s.Quiet) (hsynced : s.synced = true)
    (hlive : s.widget.destroyed = false) : s.Current config := by
  refine ⟨h.loaded hsynced, fun a ↦ ?_⟩
  obtain ⟨row, ⟨m, hm, hrow⟩, hshows⟩ := h.rows hsynced hlive a.id
  obtain ⟨-, -, hevents⟩ := hquiet
  rw [hevents] at hm
  obtain rfl : m = 0 := Nat.le_zero.mp hm
  rw [hshows a rfl, ← hrow, mem_matching_tableOf]

/-- **The list converges.** In a run where every page and every answer that is applied is not behind
the events, and no row is cut that is missed, once nothing is in flight and a page has been shown,
the list has the alarms that match the filter, each in its latest state. -/
theorem converges {labels : List TrafficLabel}
    (hrun : Trace.Path (Following config) (opened log) labels s) (hquiet : s.Quiet)
    (hsynced : s.synced = true) (hlive : s.widget.destroyed = false) : s.Current config := by
  refine Follows.current (hrun.invariant (Follows config) ?_ (Follows.opened config log)) hquiet
    hsynced hlive
  rintro s label t hs ⟨hfew, hkeeps, rfl⟩
  exact hs.step hfew hkeeps

/-- A list of two rows, and an alarm. -/
def twoRows : AlarmListConfig := ⟨none, .open, 2, by decide, by decide⟩

def oneAlarm (state : AlarmState) : Alarm :=
  ⟨⟨1, state, some .critical, some .high, some "p", none, some 0⟩, ⟨rfl, rfl, rfl, rfl⟩⟩

/-- The first page is shown, and its alarm is acknowledged: the event comes before the answer. -/
def acknowledgedLabels : List TrafficLabel :=
  [.pageAnswered 0 none, .pageReceived 0, .acknowledge 1, .stored (oneAlarm .activeAcked),
    .ackAnswered 0 none, .eventReceived 0, .ackReceived 0]

theorem converges_acknowledged : ∃ s, Trace.Path (Following twoRows)
    (opened [oneAlarm .activeUnacked]) acknowledgedLabels s ∧
      (s.Quiet ∧ s.synced = true ∧ s.widget.destroyed = false) ∧ s.Current twoRows := by
  have hrun : ∃ s, Trace.Path (Following twoRows) (opened [oneAlarm .activeUnacked])
      acknowledgedLabels s ∧ s.Quiet ∧ s.synced = true ∧ s.widget.destroyed = false := by
    refine ⟨_, .cons ⟨by decide, trivial, rfl⟩ (.cons ⟨by decide, ?_, rfl⟩
      (.cons ⟨by decide, trivial, rfl⟩ (.cons ⟨by decide, trivial, rfl⟩
      (.cons ⟨by decide, trivial, rfl⟩ (.cons ⟨by decide, ?_, rfl⟩ (.cons ⟨by decide, ?_, rfl⟩
      (.nil _))))))), ⟨rfl, rfl, rfl⟩, rfl, rfl⟩
    · intro n hn
      obtain rfl : 1 = n := by
        simpa [opened, AlarmTraffic.step, answerNow, AlarmListWidget.refresh] using hn
      exact InTime.latest le_rfl
    · intro _ event hevent a ha
      obtain rfl : oneAlarm .activeAcked = event := Option.some.inj hevent
      exact absurd ha List.not_mem_nil
    · intro _ id n alarm hack halarm
      have hrequest : (⟨1, some (.ok 2)⟩ : AckRequest) = ⟨id, some (.ok n)⟩ := Option.some.inj hack
      obtain ⟨rfl, rfl⟩ : 1 = id ∧ 2 = n := by simpa using hrequest
      obtain rfl : (oneAlarm .activeAcked).1 = alarm := Except.ok.inj halarm
      refine ⟨⟨0, Nat.zero_le _, rfl⟩, fun a ha ↦ ?_⟩
      exact absurd ha List.not_mem_nil
  obtain ⟨s, hrun, hquiet, hsynced, hlive⟩ := hrun
  exact ⟨s, hrun, ⟨hquiet, hsynced, hlive⟩, converges hrun hquiet hsynced hlive⟩
/-- The alarm is closed after the page was read; its event comes before the page. -/
def slowPage : AlarmTraffic :=
  ((((opened [oneAlarm .activeUnacked]).step twoRows (.pageAnswered 0 none)).step twoRows
    (.stored (oneAlarm .normal))).step twoRows (.eventReceived 0)).step twoRows (.pageReceived 0)

/-- A page that comes after an event is shown, though it was read before the change. -/
theorem not_converges : ¬ ∀ (config : AlarmListConfig) (log : List Alarm)
    (labels : List TrafficLabel) (s : AlarmTraffic),
    Trace.Path (fun s label t ↦ s.Few config ∧ s.step config label = t) (opened log) labels s →
      s.Few config → s.Quiet → s.synced = true → s.widget.destroyed = false →
        s.Current config := by
  intro h
  have hrun : Trace.Path (fun s label t ↦ s.Few twoRows ∧ s.step twoRows label = t)
      (opened [oneAlarm .activeUnacked])
      [.pageAnswered 0 none, .stored (oneAlarm .normal), .eventReceived 0, .pageReceived 0]
      slowPage :=
    .cons ⟨by decide, rfl⟩ (.cons ⟨by decide, rfl⟩ (.cons ⟨by decide, rfl⟩
      (.cons ⟨by decide, rfl⟩ (.nil _))))
  have hcurrent := h twoRows _ _ _ hrun (by decide) ⟨rfl, rfl, rfl⟩ rfl rfl
  have hshown : (oneAlarm .activeUnacked).1 ∈ slowPage.widget.alarms := by decide
  have hmatching := (hcurrent.2 _).mp hshown
  revert hmatching
  decide

end Run

end AlarmTraffic

end AlarmList

end Superviseur
