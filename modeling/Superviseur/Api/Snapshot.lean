import Superviseur.Api.Realtime
import Superviseur.Collector.Latest

/-!
# The snapshot and the stream

A point that is subscribed has its row of `point_latest` sent, and the messages of its channel
relayed, by two tasks that do not compare what they send. The rows come late, by the time a reading
waits in the buffer of the collector. Hence a row may be sent after the message of a newer reading;
and a reading that was published before the subscription, and written after the rows were read, is
never sent. **Otherwise the client ends on the last reading published.**

What is kept is that the last of the values of a point sent or on their way is the last one
published; where the row of the point was read and is still to be sent, that this holds of the row
and of the messages on their way.
-/

namespace Superviseur

/-- The request under way has still to deal with the point. -/
def Serving.Awaits (id : Uuid) : Serving → Prop
  | reading new => id ∈ new
  | sending rows => ∃ row ∈ rows, row.pointId = id
  | unsubscribing wanted => id ∈ wanted
  | idle | subscribing _ => False

/-- The row of the point is still to be read, or the point is given up. -/
def Serving.Excuses (id : Uuid) : Serving → Prop
  | reading new => id ∈ new
  | unsubscribing wanted => id ∈ wanted
  | idle | subscribing _ | sending _ => False

theorem Serving.Excuses.awaits {id : Uuid} {serving : Serving} (h : serving.Excuses id) :
    serving.Awaits id := by
  cases serving with
  | reading new | unsubscribing wanted => exact h
  | idle | subscribing new | sending rows => exact h.elim

instance (id : Uuid) : (serving : Serving) → Decidable (serving.Excuses id)
  | .reading new => inferInstanceAs (Decidable (id ∈ new))
  | .unsubscribing wanted => inferInstanceAs (Decidable (id ∈ wanted))
  | .idle | .subscribing _ | .sending _ => .isFalse not_false

namespace Realtime

/-- The messages on their way to the client. -/
def pending (s : Realtime) : List Reading := s.relaying.toList ++ s.queue

/-- The last reading of a point that was published, if any, is the last of these. -/
def EndsOn (s : Realtime) (id : Uuid) (messages : List Reading) : Prop :=
  ∀ reading ∈ lastOf id s.recorder.published, lastOf id messages = some reading

/-- The order of publications, writes, readings and messages. When the rows are read, the last
reading published of a point is the last message on its way or, where none is, it is written. Before
a row is sent, no message of its point is relayed unless it says the same or another follows. A
reading is published once Redis has taken the subscription into account, or before the row is
read. -/
def Fresh (s : Realtime) : Event → Prop
  | .collector event => ∀ reading ∈ publication s.recorder event, reading.pointId ∈ s.points →
      ¬s.serving.Excuses reading.pointId → reading.pointId ∈ s.channels
  | .read => match s.serving with
    | .reading new => ∀ id ∈ new, ∀ reading ∈ lastOf id s.recorder.published,
        (lastOf id s.pending).or (s.recorder.pointLatest id) = some reading
    | _ => True
  | .relay => match s.serving, s.relaying with
    | .sending rows, some message => ∀ row ∈ rows, row.pointId = message.pointId →
        message = row ∨ lastOf message.pointId s.queue ≠ none
    | _, _ => True
  | _ => True

/-- Every reading is published and written, and every message sent. -/
structure Quiescent (s : Realtime) : Prop where
  publishing : s.recorder.publishing = []
  recording : s.recorder.recording = []
  settled : s.recorder.Settled
  serving : s.serving = .idle
  commands : s.commands = []
  relaying : s.relaying = none
  queue : s.queue = []

/-- What every step preserves. -/
structure Valid (s : Realtime) : Prop where
  dealt : ∀ id ∈ s.points, ¬s.serving.Awaits id → s.EndsOn id (s.sent ++ s.pending)
  /-- A point whose row is still to be read is one of the connection. -/
  new : ∀ new, s.serving = .reading new → ∀ id ∈ new, id ∈ s.points
  rows : ∀ rows, s.serving = .sending rows → ∀ row ∈ rows,
    row.pointId ∈ s.points ∧ s.EndsOn row.pointId (row :: s.pending)

variable {batchRows : ℕ} {s t : Realtime} {e : Event}

/-- A step of the recorder publishes nothing but the reading of `publication`. -/
theorem published_next {r r' : Recorder} {event : Recorder.Event}
    (h : r.next batchRows event = some r') :
    r'.published = r.published ++ (publication r event).toList := by
  cases Recorder.step_of_next h with
  | unknown | handle | record | flush | skip | take | write | restore =>
    exact (List.append_nil _).symm
  | @publish i ok reading hreading =>
    cases ok with
    | true => exact congrArg (r.published ++ ·) (by rw [publication, hreading]; rfl)
    | false => exact (List.append_nil _).symm

theorem lastOf_append_of_eq_some {id : Uuid} {reading : Reading} {before after : List Reading}
    (h : lastOf id after = some reading) : lastOf id (before ++ after) = some reading := by
  rw [lastOf, List.filter_append, List.getLast?_append]
  rw [lastOf] at h
  rw [h, Option.some_or]

theorem lastOf_insert_of_ne {id : Uuid} {row : Reading} {before after : List Reading}
    (h : row.pointId ≠ id) : lastOf id (before ++ row :: after) = lastOf id (before ++ after) := by
  simp [lastOf, h]

/-- A row comes first: another reading of its point is the last one, or there is none. -/
theorem lastOf_cons (row : Reading) (after : List Reading) :
    lastOf row.pointId (row :: after) = (lastOf row.pointId after).or (some row) := by
  simp [lastOf, List.getLast?_cons]

/-- What is published by a step of the collector is given to the connection, and comes last. -/
theorem EndsOn.collector {id : Uuid} {before : List Reading} (h : s.EndsOn id (before ++ s.pending))
    {event : Recorder.Event} {recorder : Recorder}
    (hnext : s.recorder.next batchRows event = some recorder)
    (hchannel : ∀ message ∈ publication s.recorder event, message.pointId = id →
      id ∈ s.channels) :
    EndsOn { s with recorder := recorder, queue := s.queue ++ s.delivered event } id
      (before ++ (s.pending ++ s.delivered event)) := by
  intro reading hreading
  rw [published_next hnext] at hreading
  rw [← List.append_assoc, delivered]
  cases hpub : publication s.recorder event with
  | none =>
    rw [hpub, Option.toList_none, List.append_nil] at hreading
    rw [List.append_nil]
    exact h reading hreading
  | some message =>
    rw [hpub, Option.toList_some] at hreading
    by_cases hmessage : message.pointId = id
    · -- The reading is the last one, and is given to the connection.
      have hchannel := hchannel message hpub hmessage
      subst hmessage
      rw [lastOf_append_self] at hreading
      dsimp only
      rw [if_pos hchannel, lastOf_append_self]
      exact hreading
    · rw [lastOf_append_of_ne hmessage] at hreading
      dsimp only
      split
      · rw [lastOf_append_of_ne hmessage]
        exact h reading hreading
      · rw [List.append_nil]
        exact h reading hreading

theorem Valid.collector (h : Valid s) {event : Recorder.Event} {recorder : Recorder}
    (hnext : s.recorder.next batchRows event = some recorder)
    (hfresh : Fresh s (.collector event)) :
    Valid { s with recorder := recorder, queue := s.queue ++ s.delivered event } := by
  have hpending : ∀ before : List Reading,
      before ++ (s.relaying.toList ++ (s.queue ++ s.delivered event)) =
        before ++ (s.pending ++ s.delivered event) := fun before ↦ by
    rw [pending, List.append_assoc]
  refine ⟨fun id hid hawaits ↦ ?_, h.new, fun rows hserving row hrow ↦ ?_⟩
  · rw [pending, hpending]
    refine (h.dealt id hid hawaits).collector hnext fun message hpub hmessage ↦ ?_
    subst hmessage
    exact hfresh message hpub hid fun hexcuses ↦ hawaits hexcuses.awaits
  · obtain ⟨hid, hends⟩ := h.rows rows hserving row hrow
    refine ⟨hid, ?_⟩
    rw [pending, ← List.singleton_append, hpending]
    have hlast : s.EndsOn row.pointId ([row] ++ s.pending) := hends
    refine hlast.collector hnext fun message hpub hmessage ↦ ?_
    rw [← hmessage] at hid ⊢
    refine hfresh message hpub hid ?_
    rw [show s.serving = .sending rows from hserving]
    exact not_false

/-- The rows are read: each is the last reading published of its point, or a message on its way
is. -/
theorem Valid.read (h : Valid s) {new : List Uuid} (hserving : s.serving = .reading new)
    (hfresh : ∀ id ∈ new, ∀ reading ∈ lastOf id s.recorder.published,
      (lastOf id s.pending).or (s.recorder.pointLatest id) = some reading) :
    Valid { s with serving := .sending (new.filterMap s.row) } := by
  refine ⟨fun id hid hawaits ↦ ?_, fun _ ↦ nofun, fun rows hsending row hrow ↦ ?_⟩
  · by_cases hnew : id ∈ new
    · -- The point has no row: its last reading is on its way.
      intro reading hreading
      have hlast := hfresh id hnew reading hreading
      have hnone : s.recorder.pointLatest id = none := by
        by_contra hsome
        obtain ⟨stored, hstored⟩ := Option.ne_none_iff_exists'.mp hsome
        refine hawaits ⟨{ stored with pointId := id }, List.mem_filterMap.mpr ⟨id, hnew, ?_⟩, rfl⟩
        rw [row, hstored]
        rfl
      rw [hnone, Option.or_none] at hlast
      exact lastOf_append_of_eq_some hlast
    · exact h.dealt id hid (by rw [hserving]; exact hnew)
  · obtain rfl := Serving.sending.inj hsending
    obtain ⟨id, hnew, hrow⟩ := List.mem_filterMap.mp hrow
    obtain ⟨stored, hstored, rfl⟩ := Option.map_eq_some_iff.mp hrow
    refine ⟨h.new new hserving id hnew, fun reading hreading ↦ ?_⟩
    have hlast := hfresh id hnew reading hreading
    rw [hstored] at hlast
    refine (lastOf_cons _ _).trans ?_
    rcases hpending : lastOf id s.pending with - | message
    · -- the row is the last reading published
      rw [hpending, Option.none_or, Option.some_inj] at hlast
      subst hlast
      have hid : stored.pointId = id :=
        of_decide_eq_true (List.mem_filter.mp (List.mem_of_getLast? hreading)).2
      subst hid
      exact congrArg (Option.or · _) hpending
    · rw [hpending, Option.some_or] at hlast
      exact (congrArg (Option.or · _) hpending).trans hlast

theorem Valid.send (h : Valid s) {rows : List Reading} {i : ℕ} {row : Reading}
    (hserving : s.serving = .sending rows) (hrow : rows[i]? = some row) :
    Valid { s with serving := .sending (rows.eraseIdx i), sent := s.sent ++ [row] } := by
  have hassoc : s.sent ++ [row] ++ s.pending = s.sent ++ row :: s.pending := by
    rw [List.append_assoc, List.singleton_append]
  refine ⟨fun id hid hawaits reading hreading ↦ ?_, fun _ ↦ nofun,
    fun rest hsending other hother ↦ ?_⟩
  · change lastOf id (s.sent ++ [row] ++ s.pending) = some reading
    rw [hassoc]
    by_cases hpoint : row.pointId = id
    · subst hpoint
      have hends := (h.rows rows hserving row (List.mem_of_getElem? hrow)).2
      exact lastOf_append_of_eq_some (hends reading hreading)
    · rw [lastOf_insert_of_ne hpoint]
      refine h.dealt id hid ?_ reading hreading
      rw [hserving]
      rintro ⟨other, hother, heq⟩
      obtain ⟨hi, hget⟩ := List.getElem?_eq_some_iff.mp hrow
      have hperm := (List.getElem_cons_eraseIdx_perm hi).mem_iff.mpr hother
      rw [hget, List.mem_cons] at hperm
      rcases hperm with rfl | hperm
      · exact hpoint heq
      · exact hawaits ⟨other, hperm, heq⟩
  · obtain rfl := Serving.sending.inj hsending
    exact h.rows rows hserving other (List.mem_of_mem_eraseIdx hother)

/-- A message is sent: where the row of its point is still to be, it is that row, or another
follows. -/
theorem Valid.relay (h : Valid s) {message : Reading} (hrelaying : s.relaying = some message)
    (hfresh : ∀ rows, s.serving = .sending rows → ∀ row ∈ rows, row.pointId = message.pointId →
      message = row ∨ lastOf message.pointId s.queue ≠ none) :
    Valid { s with relaying := none, sent := s.sent ++ [message] } := by
  have hpending : s.pending = message :: s.queue := by
    rw [pending, hrelaying]
    rfl
  refine ⟨fun id hid hawaits reading hreading ↦ ?_, h.new, fun rows hserving row hrow ↦ ?_⟩
  · have hlast := h.dealt id hid hawaits reading hreading
    rw [hpending] at hlast
    change lastOf id (s.sent ++ [message] ++ s.queue) = some reading
    rw [List.append_assoc]
    exact hlast
  · obtain ⟨hid, hends⟩ := h.rows rows hserving row hrow
    refine ⟨hid, fun reading hreading ↦ ?_⟩
    have hlast := hends reading hreading
    rw [hpending] at hlast
    change lastOf row.pointId (row :: s.queue) = some reading
    by_cases hpoint : row.pointId = message.pointId
    · rw [lastOf_cons, hpoint, lastOf_cons] at hlast
      rw [lastOf_cons, hpoint]
      rcases hfresh rows hserving row hrow hpoint with rfl | hnext
      · rcases hqueue : lastOf message.pointId s.queue with - | last
        · rw [hqueue, Option.none_or, Option.some_or] at hlast
          exact hlast
        · rw [hqueue, Option.some_or, Option.some_or] at hlast
          exact hlast
      · obtain ⟨last, hqueue⟩ := Option.ne_none_iff_exists'.mp hnext
        rw [hqueue, Option.some_or, Option.some_or] at hlast
        rw [hqueue, Option.some_or]
        exact hlast
    · rw [← List.singleton_append, lastOf_insert_of_ne (Ne.symm hpoint)] at hlast
      exact hlast

/-- What is published, sent or on its way stays the same, and no row is waited for. -/
theorem Valid.congr (h : Valid s) (hpublished : t.recorder.published = s.recorder.published)
    (hsent : t.sent ++ t.pending = s.sent ++ s.pending)
    (hpoints : ∀ id ∈ t.points, ¬t.serving.Awaits id → id ∈ s.points ∧ ¬s.serving.Awaits id)
    (hnew : ∀ new, t.serving = .reading new → ∀ id ∈ new, id ∈ t.points)
    (hrows : ∀ rows, t.serving ≠ .sending rows) : Valid t := by
  refine ⟨fun id hid hawaits ↦ ?_, hnew, fun rows hserving ↦ absurd hserving (hrows rows)⟩
  have hid := hpoints id hid hawaits
  rw [EndsOn, hpublished, hsent]
  exact h.dealt id hid.1 hid.2

/-- **Step lemma.** -/
theorem Valid.step (h : Valid s) (hfresh : Fresh s e) (hstep : s.next batchRows e = some t) :
    Valid t := by
  cases step_of_next hstep with
  | collector hnext => exact h.collector hnext hfresh
  | refuseSubscribe | noneToAdd | refuseUnsubscribe | noneToRemove => exact h
  | subscribe hserving | unsubscribe hserving =>
    refine h.congr rfl rfl (fun id hid _ ↦ ⟨hid, ?_⟩) (fun _ ↦ nofun) (fun _ ↦ nofun)
    rw [hserving]
    exact not_false
  | redis => exact ⟨h.dealt, h.new, h.rows⟩
  | subscribed hserving =>
    -- the new points are waited for
    refine h.congr rfl rfl (fun id hid hawaits ↦ ⟨?_, ?_⟩) (fun new hreading id hid ↦ ?_)
      (fun _ ↦ nofun)
    · exact (List.mem_append.mp hid).resolve_right hawaits
    · rw [hserving]
      exact not_false
    · obtain rfl := Serving.reading.inj hreading
      exact List.mem_append_right _ hid
  | @unsubscribed wanted hserving =>
    refine h.congr rfl rfl (fun id hid _ ↦ ?_) (fun _ ↦ nofun) (fun _ ↦ nofun)
    obtain ⟨hid, hkept⟩ := List.mem_filter.mp hid
    have hwanted : id ∉ wanted := of_decide_eq_true hkept
    rw [hserving]
    exact ⟨hid, hwanted⟩
  | read hserving =>
    rw [Fresh, hserving] at hfresh
    exact h.read hserving hfresh
  | send hserving hrow => exact h.send hserving hrow
  | served hserving =>
    refine h.congr rfl rfl (fun id hid _ ↦ ⟨hid, ?_⟩) (fun _ ↦ nofun) (fun _ ↦ nofun)
    rw [hserving]
    rintro ⟨row, hrow, -⟩
    nomatch hrow
  | @take message queue hrelaying hqueue =>
    have hpending : s.pending = pending { s with relaying := some message, queue := queue } := by
      rw [pending, pending, hrelaying, hqueue]
      rfl
    refine ⟨fun id hid hawaits ↦ ?_, h.new, fun rows hserving row hrow ↦ ?_⟩
    · exact hpending ▸ h.dealt id hid hawaits
    · exact hpending ▸ h.rows rows hserving row hrow
  | relay hrelaying =>
    refine h.relay hrelaying fun rows hserving ↦ ?_
    rw [Fresh, hserving, hrelaying] at hfresh
    exact hfresh

theorem valid_accept (recorder : Recorder) : Valid (accept recorder) where
  dealt _ hid := nomatch hid
  new _ hserving := nomatch hserving
  rows _ hserving := nomatch hserving

/-- **A subscriber ends on the newest value.** Along the runs where the rows are read once the last
readings published are written or on their way, and where they are not sent after newer messages,
the last value the client was sent for a point it is still subscribed to is the last reading
published, once everything is published, written and sent. -/
theorem newest_sent {recorder : Recorder} {es : List Event} (hrun : Run batchRows Fresh
    (accept recorder) es s) (hquiet : s.Quiescent) {id : Uuid} (hid : id ∈ s.points)
    {reading : Reading} (hreading : lastOf id s.recorder.published = some reading) :
    lastOf id s.sent = some reading := by
  have hvalid := hrun.invariant Valid (fun h hstep ↦ h.step hstep.1 hstep.2)
    (valid_accept recorder)
  have hsent := hvalid.dealt id hid (by rw [hquiet.serving]; exact not_false) reading hreading
  rw [pending, hquiet.relaying, hquiet.queue, Option.toList_none, List.append_nil,
    List.append_nil] at hsent
  exact hsent

/-! ## A row sent in time, and a row sent too late -/

instance : (e : Event) → Decidable (Fresh s e)
  | .collector event => inferInstanceAs (Decidable (∀ reading ∈ publication s.recorder event, _))
  | .read => match h : s.serving with
    | .reading new => decidable_of_iff (∀ id ∈ new, ∀ reading ∈ lastOf id s.recorder.published,
        (lastOf id s.pending).or (s.recorder.pointLatest id) = some reading) (by rw [Fresh, h])
    | .idle | .subscribing _ | .sending _ | .unsubscribing _ => .isTrue (by rw [Fresh, h]; trivial)
  | .relay => match h : s.serving, hrelaying : s.relaying with
    | .sending rows, some message => decidable_of_iff (∀ row ∈ rows,
        row.pointId = message.pointId → message = row ∨ lastOf message.pointId s.queue ≠ none)
          (by rw [Fresh, h, hrelaying])
    | .sending _, none => .isTrue (by rw [Fresh, h, hrelaying]; trivial)
    | .idle, _ | .subscribing _, _ | .reading _, _ | .unsubscribing _, _ =>
      .isTrue (by rw [Fresh, h]; trivial)
  | .subscribe _ | .unsubscribe _ | .redis | .resume | .send _ | .served | .take => .isTrue trivial

/-- The collector, which wrote a reading of the first point before. -/
def collector : Recorder := .start Recorder.twoPoints fun id ↦
  if id = 1 then some (Recorder.readingAt 1 1) else none

/-- The client asks for the first point, and Redis subscribes the connection. -/
def opening : List Event := [.subscribe ["00000000-0000-0000-0000-000000000001"], .redis, .resume]

/-- A flush of the collector. -/
def flushed : List Event := [.collector .flush, .collector .lock, .collector (.finish true)]

/-- A reading is published and relayed. -/
def relayed : List Event :=
  [.collector (.handle (Recorder.readingAt 1 2)), .collector (.publish 0 true), .take, .relay]

instance : Decidable s.Quiescent :=
  decidable_of_iff (((s.recorder.publishing = [] ∧ s.recorder.recording = []) ∧
      (s.recorder.writing.isNone ∧ s.recorder.latest.entries.isEmpty)) ∧
      (s.serving = .idle ∧ s.commands = []) ∧ s.relaying = none ∧ s.queue = []) <| by
    constructor
    · rintro ⟨⟨⟨hpublishing, hrecording⟩, hwriting, hlatest⟩, ⟨hserving, hcommands⟩, hrelaying,
        hqueue⟩
      exact ⟨hpublishing, hrecording, ⟨Option.isNone_iff_eq_none.mp hwriting,
        AList.ext (List.isEmpty_iff.mp hlatest)⟩, hserving, hcommands, hrelaying, hqueue⟩
    · intro h
      refine ⟨⟨⟨h.publishing, h.recording⟩, Option.isNone_iff_eq_none.mpr h.settled.1, ?_⟩,
        ⟨h.serving, h.commands⟩, h.relaying, h.queue⟩
      rw [h.settled.2]
      rfl

/-- Whether the system is quiescent, the points of the connection, what was published and what was
sent. -/
def outcome (s : Realtime) : Bool × List Uuid × List Reading × List Reading :=
  (decide s.Quiescent, s.points, s.recorder.published, s.sent)

/-- The reading is written before the rows are read. -/
theorem newest_sent_written : ∃ s, Run 500 Fresh (accept collector)
      (opening ++ relayed ++ .collector (.record 0) :: flushed ++ [.read, .send 0, .served]) s ∧
    lastOf 1 s.sent = some (Recorder.readingAt 1 2) := by
  have hend : (Trace.exec (fun s e ↦ if Fresh s e then next 500 s e else none) (accept collector)
      (opening ++ relayed ++ .collector (.record 0) :: flushed ++ [.read, .send 0, .served])).map
      outcome = some (true, [1], [Recorder.readingAt 1 2],
        [Recorder.readingAt 1 2, Recorder.readingAt 1 2]) := by decide +kernel
  obtain ⟨s, hs, hend⟩ := Option.map_eq_some_iff.mp hend
  simp only [outcome, Prod.mk.injEq, decide_eq_true_eq] at hend
  obtain ⟨hquiet, hpoints, hpublished, -⟩ := hend
  have hrun : Run 500 Fresh (accept collector)
      (opening ++ relayed ++ .collector (.record 0) :: flushed ++ [.read, .send 0, .served]) s :=
    .of_exec_checked hs
  refine ⟨s, hrun, newest_sent hrun hquiet ?_ ?_⟩
  · rw [hpoints]
    exact List.mem_cons_self ..
  · rw [hpublished]
    decide +kernel

/-- The reading is relayed before the rows are read, and written after: the client ends on the row
that was there before. -/
theorem old_row_sent_last :
    ¬ ∀ (batchRows : ℕ) (recorder : Recorder) (es : List Event) (s : Realtime),
      Run batchRows (fun _ _ ↦ True) (accept recorder) es s → s.Quiescent →
        ∀ id ∈ s.points, ∀ reading, lastOf id s.recorder.published = some reading →
          lastOf id s.sent = some reading := by
  intro hends
  have hend : (Trace.exec (next 500) (accept collector)
      (opening ++ relayed ++ [.read, .send 0, .served] ++ .collector (.record 0) :: flushed)).map
      outcome = some (true, [1], [Recorder.readingAt 1 2],
        [Recorder.readingAt 1 2, Recorder.readingAt 1 1]) := by decide +kernel
  obtain ⟨s, hs, hend⟩ := Option.map_eq_some_iff.mp hend
  simp only [outcome, Prod.mk.injEq, decide_eq_true_eq] at hend
  obtain ⟨hquiet, hpoints, hpublished, hsent⟩ := hend
  have hlast := hends 500 collector _ s (.of_exec (fun _ _ _ ↦ trivial) hs) hquiet 1
    (by rw [hpoints]; exact List.mem_cons_self ..) (Recorder.readingAt 1 2)
    (by rw [hpublished]; decide +kernel)
  rw [hsent] at hlast
  exact absurd hlast (by decide +kernel)

end Realtime

end Superviseur
