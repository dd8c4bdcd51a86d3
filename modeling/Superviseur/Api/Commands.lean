import Superviseur.Collector.Acceptance
import Superviseur.Alarms.Commands
import Superviseur.Library.Trace
import Mathlib.Logic.Function.Basic

/-!
# Commands between the API and a consumer

`send_and_wait` appends a command to a stream and waits for its answer until a deadline of its own;
a consumer reads the stream one entry at a time and executes a command unless it is too old. The two
share nothing but the stream, the channel of the answer, and a clock.

The system below lets time pass between any two steps, on either side. A consumer waits between the
stages of an execution, may stop at any point, and then meets again the entries it had not
acknowledged. Every request the API makes is followed by its identifier.

The consumer accepts commands older than the API waits for. Where it checks none at an age between
the two, the time from a check to the effect being counted in, what timed out has no effect later.
-/

namespace Superviseur

/-- `STREAM_MAX_LEN`. -/
def streamMaxLen : ℕ := 10000

/-- `write_timeout_s`, by default. -/
def writeTimeoutS : Instant := 10

/-- Where the API stands with a command. -/
inductive Waiting where
  /-- The command is made; its channel is subscribed to. -/
  | prepared (command : Dict)
  /-- `xadd` is done. -/
  | sent
  /-- The loop of `send_and_wait`. -/
  | waiting (deadline : Instant)
  | answered (result : CommandResult)
  /-- `send_and_wait` returned `None`. -/
  | timedOut (deadline : Instant)

/-- An entry of the stream. -/
structure Entry where
  commandId : String
  command : Dict

/-- Where the consumer stands with an entry. -/
inductive Treatment (τ π : Type) where
  | idle
  | received (m : Entry)
  | checked (m : Entry) (checked : τ)
  | authorised (m : Entry) (authorised : π)
  | answering (m : Entry) (answer : Answer)
  | published (m : Entry)

/-- Redis and the consumer: what the API does not see. -/
structure Backend (τ π σ : Type) where
  /-- Entries not acknowledged. -/
  stream : List Entry
  results : List CommandResult
  treatment : Treatment τ π
  work : σ

structure Exchange (τ π σ : Type) where
  now : Instant
  api : String → Option Waiting
  /-- Commands answered by a 504, each with its row in the audit log. -/
  refused : List String
  backend : Backend τ π σ

/-- The steps of the consumer, and of Redis on its stream. -/
inductive Work (ε σ : Type) where
  | receive (position : ℕ)
  | check (env : ε)
  | authorise (env : ε)
  | apply (env : ε) (id : String)
  | publish
  | acknowledge
  | crash
  /-- Redis drops the oldest entry of a stream that is too long. -/
  | trim
  /-- Whatever else the process of the consumer does. -/
  | other (f : σ → σ)

/-- The steps of the API, of the clock, and of the consumer. -/
inductive Event (ε σ : Type) where
  | tick (duration : Instant)
  /-- The API makes the command, with its identifier and the instant. -/
  | issue (id : String) (fields : Dict)
  | send (id : String)
  /-- The deadline is set, once `xadd` has returned. -/
  | arm (id : String)
  | deliver (id : String)
  | timeOut (id : String)
  | consumer (w : Work ε σ)

section

variable {ε τ π σ : Type} (svc : Service ε τ π σ) (timeout : Instant)

/-- One step of the consumer at the instant `now`, where it is possible. -/
def Backend.next (now : Instant) (b : Backend τ π σ) : Work ε σ → Option (Backend τ π σ)
  | .receive position =>
    match b.treatment, b.stream[position]? with
    | .idle, some m => some { b with treatment := .received m }
    | _, _ => none
  | .check env =>
    match b.treatment with
    | .received m =>
      if svc.now env = .fin now then
        match svc.check env m.command with
        | .ok checked => some { b with treatment := .checked m checked }
        | .error answer => some { b with treatment := .answering m answer }
      else none
    | _ => none
  | .authorise env =>
    match b.treatment with
    | .checked m checked =>
      match svc.authorise env m.command checked with
      | .ok authorised => some { b with treatment := .authorised m authorised }
      | .error answer => some { b with treatment := .answering m answer }
    | _ => none
  | .apply env id =>
    match b.treatment with
    | .authorised m authorised =>
      if m.commandId = id then
        let (answer, work) := svc.apply env authorised b.work
        some { b with treatment := .answering m answer, work := work }
      else none
    | _ => none
  | .publish =>
    match b.treatment with
    | .answering m answer => some { b with
        results :=
          if m.commandId = "" then b.results else b.results ++ [answer.toResult m.commandId]
        treatment := .published m }
    | _ => none
  | .acknowledge =>
    match b.treatment with
    | .published m => some { b with
        stream := b.stream.filter fun e ↦ e.commandId ≠ m.commandId
        treatment := .idle }
    | _ => none
  | .crash => some { b with treatment := .idle }
  | .trim =>
    if streamMaxLen < b.stream.length then some { b with stream := b.stream.tail } else none
  | .other f => some { b with work := f b.work }

/-- What a step of the consumer does, with what it finds. -/
inductive Backend.Step (svc : Service ε τ π σ) (now : Instant) (b : Backend τ π σ) :
    Work ε σ → Backend τ π σ → Prop
  | receive {position : ℕ} {m : Entry} (hidle : b.treatment = .idle)
      (hentry : b.stream[position]? = some m) :
      Step svc now b (.receive position) { b with treatment := .received m }
  | check {env : ε} {m : Entry} {checked : τ} (htreatment : b.treatment = .received m)
      (hnow : svc.now env = .fin now) (hcheck : svc.check env m.command = .ok checked) :
      Step svc now b (.check env) { b with treatment := .checked m checked }
  | refuseCheck {env : ε} {m : Entry} {answer : Answer} (htreatment : b.treatment = .received m)
      (hnow : svc.now env = .fin now) (hcheck : svc.check env m.command = .error answer) :
      Step svc now b (.check env) { b with treatment := .answering m answer }
  | authorise {env : ε} {m : Entry} {checked : τ} {authorised : π}
      (htreatment : b.treatment = .checked m checked)
      (hauthorise : svc.authorise env m.command checked = .ok authorised) :
      Step svc now b (.authorise env) { b with treatment := .authorised m authorised }
  | refuseAuthorise {env : ε} {m : Entry} {checked : τ} {answer : Answer}
      (htreatment : b.treatment = .checked m checked)
      (hauthorise : svc.authorise env m.command checked = .error answer) :
      Step svc now b (.authorise env) { b with treatment := .answering m answer }
  | apply {env : ε} {m : Entry} {authorised : π}
      (htreatment : b.treatment = .authorised m authorised) :
      Step svc now b (.apply env m.commandId) { b with
        treatment := .answering m (svc.apply env authorised b.work).1
        work := (svc.apply env authorised b.work).2 }
  | publish {m : Entry} {answer : Answer} (htreatment : b.treatment = .answering m answer) :
      Step svc now b .publish { b with
        results :=
          if m.commandId = "" then b.results else b.results ++ [answer.toResult m.commandId]
        treatment := .published m }
  | acknowledge {m : Entry} (htreatment : b.treatment = .published m) :
      Step svc now b .acknowledge { b with
        stream := b.stream.filter fun e ↦ e.commandId ≠ m.commandId
        treatment := .idle }
  | crash : Step svc now b .crash { b with treatment := .idle }
  | trim (hlong : streamMaxLen < b.stream.length) :
      Step svc now b .trim { b with stream := b.stream.tail }
  | other (f : σ → σ) : Step svc now b (.other f) { b with work := f b.work }

variable {svc} in
theorem Backend.step_of_next {b b' : Backend τ π σ} {now : Instant} {w : Work ε σ}
    (h : b.next svc now w = some b') : b.Step svc now w b' := by
  cases w with
  | receive position =>
    simp only [next] at h
    split at h
    · rename_i hidle hentry
      exact Option.some.inj h ▸ .receive hidle hentry
    · nomatch h
  | check env =>
    simp only [next] at h
    split at h
    · rename_i htreatment
      obtain ⟨hnow, h⟩ := Option.ite_none_right_eq_some.mp h
      split at h
      · rename_i hcheck
        exact Option.some.inj h ▸ .check htreatment hnow hcheck
      · rename_i hcheck
        exact Option.some.inj h ▸ .refuseCheck htreatment hnow hcheck
    · nomatch h
  | authorise env =>
    simp only [next] at h
    split at h
    · rename_i htreatment
      split at h
      · rename_i hauthorise
        exact Option.some.inj h ▸ .authorise htreatment hauthorise
      · rename_i hauthorise
        exact Option.some.inj h ▸ .refuseAuthorise htreatment hauthorise
    · nomatch h
  | apply env id =>
    simp only [next] at h
    split at h
    · rename_i htreatment
      obtain ⟨hid, heq⟩ := Option.ite_none_right_eq_some.mp h
      subst hid
      exact Option.some.inj heq ▸ .apply htreatment
    · nomatch h
  | publish =>
    simp only [next] at h
    split at h
    · rename_i htreatment
      exact Option.some.inj h ▸ .publish htreatment
    · nomatch h
  | acknowledge =>
    simp only [next] at h
    split at h
    · rename_i htreatment
      exact Option.some.inj h ▸ .acknowledge htreatment
    · nomatch h
  | crash => exact Option.some.inj h ▸ .crash
  | trim =>
    obtain ⟨hlong, h⟩ := Option.ite_none_right_eq_some.mp h
    exact Option.some.inj h ▸ .trim hlong
  | other f => exact Option.some.inj h ▸ .other f

/-- The entry under treatment. -/
def Treatment.entry? : Treatment τ π → Option Entry
  | .idle => none
  | .received m | .checked m _ | .authorised m _ | .answering m _ | .published m => some m

/-- The entry is in the stream or under treatment. -/
def Backend.Holds (b : Backend τ π σ) (m : Entry) : Prop :=
  m ∈ b.stream ∨ b.treatment.entry? = some m

variable {svc} in
theorem Backend.holds_next {b b' : Backend τ π σ} {now : Instant} {w : Work ε σ} {m : Entry}
    (h : b.next svc now w = some b') (hm : b'.Holds m) : b.Holds m := by
  cases step_of_next h with
  | receive _ hentry =>
    -- the entry that is received is one of the stream
    rcases hm with hm | hm
    · exact .inl hm
    · obtain rfl := Option.some.inj hm
      exact .inl (List.mem_of_getElem? hentry)
  | check htreatment | refuseCheck htreatment | authorise htreatment | refuseAuthorise htreatment
  | apply htreatment | publish htreatment =>
    exact hm.imp_right fun hm ↦ by rw [htreatment]; exact hm
  | acknowledge => exact .inl (List.mem_filter.mp (hm.resolve_right nofun)).1
  | crash => exact .inl (hm.resolve_right nofun)
  | trim => exact hm.imp_left List.mem_of_mem_tail
  | other => exact hm

/-- The instant a command says it was issued at. -/
def issuedAt (command : Dict) : Option Instant :=
  match command.get "issued_at" with
  | .float (.num (some (some t))) => some t
  | _ => none

/-- Where the API stands at `now` with a command issued at `t`. -/
def Waiting.Issued (timeout now t : Instant) : Waiting → Prop
  | .prepared command => t ≤ now ∧ issuedAt command = some t
  | .sent => t ≤ now
  | .waiting d | .timedOut d => t + timeout ≤ d
  | .answered _ => True

variable {timeout} in
theorem Waiting.Issued.mono {now now' t : Instant} {w : Waiting} (h : w.Issued timeout now t)
    (hnow : now ≤ now') : w.Issued timeout now' t := by
  cases w with
  | prepared command => exact ⟨h.1.trans hnow, h.2⟩
  | sent => exact le_trans h hnow
  | waiting d => exact h
  | answered r => trivial
  | timedOut d => exact h

namespace Exchange

/-- The API moves on with a command. -/
def put (x : Exchange τ π σ) (id : String) (w : Waiting) : Exchange τ π σ :=
  { x with api := Function.update x.api id (some w) }

/-- One step, where it is possible. -/
def next (x : Exchange τ π σ) : Event ε σ → Option (Exchange τ π σ)
  | .tick duration => if 0 ≤ duration then some { x with now := x.now + duration } else none
  | .issue id fields =>
    match x.api id with
    | none => some (x.put id (.prepared
        (("command_id", .str id) :: ("issued_at", .float (.fin x.now)) :: fields)))
    | some _ => none
  | .send id =>
    match x.api id with
    | some (.prepared command) =>
      some { x.put id .sent with
        backend := { x.backend with stream := x.backend.stream ++ [⟨id, command⟩] } }
    | _ => none
  | .arm id =>
    match x.api id with
    | some .sent => some (x.put id (.waiting (x.now + timeout)))
    | _ => none
  | .deliver id =>
    match x.api id, x.backend.results.find? fun r ↦ r.commandId = id with
    | some (.waiting _), some r => some (x.put id (.answered r))
    | _, _ => none
  | .timeOut id =>
    match x.api id with
    | some (.waiting deadline) =>
      if deadline ≤ x.now then
        some { x.put id (.timedOut deadline) with refused := x.refused ++ [id] }
      else none
    | _ => none
  | .consumer w => (x.backend.next svc x.now w).map fun b ↦ { x with backend := b }

/-- What a step does, with what it finds. -/
inductive Step (svc : Service ε τ π σ) (timeout : Instant) (x : Exchange τ π σ) :
    Event ε σ → Exchange τ π σ → Prop
  | tick {duration : Instant} (hduration : 0 ≤ duration) :
      Step svc timeout x (.tick duration) { x with now := x.now + duration }
  | issue {id : String} {fields : Dict} (hnone : x.api id = none) :
      Step svc timeout x (.issue id fields) (x.put id (.prepared
        (("command_id", .str id) :: ("issued_at", .float (.fin x.now)) :: fields)))
  | send {id : String} {command : Dict} (hprepared : x.api id = some (.prepared command)) :
      Step svc timeout x (.send id) { x.put id .sent with
        backend := { x.backend with stream := x.backend.stream ++ [⟨id, command⟩] } }
  | arm {id : String} (hsent : x.api id = some .sent) :
      Step svc timeout x (.arm id) (x.put id (.waiting (x.now + timeout)))
  | deliver {id : String} {deadline : Instant} {result : CommandResult}
      (hwaiting : x.api id = some (.waiting deadline))
      (hresult : (x.backend.results.find? fun r ↦ r.commandId = id) = some result) :
      Step svc timeout x (.deliver id) (x.put id (.answered result))
  | timeOut {id : String} {deadline : Instant} (hwaiting : x.api id = some (.waiting deadline))
      (hpassed : deadline ≤ x.now) :
      Step svc timeout x (.timeOut id)
        { x.put id (.timedOut deadline) with refused := x.refused ++ [id] }
  | consumer {w : Work ε σ} {b : Backend τ π σ} (hnext : x.backend.next svc x.now w = some b) :
      Step svc timeout x (.consumer w) { x with backend := b }

variable {svc timeout} in
theorem step_of_next {x y : Exchange τ π σ} {e : Event ε σ} (h : next svc timeout x e = some y) :
    Step svc timeout x e y := by
  cases e with
  | tick duration =>
    obtain ⟨hduration, h⟩ := Option.ite_none_right_eq_some.mp h
    exact Option.some.inj h ▸ .tick hduration
  | issue id fields =>
    simp only [next] at h
    split at h
    · rename_i hnone
      exact Option.some.inj h ▸ .issue hnone
    · nomatch h
  | send id =>
    simp only [next] at h
    split at h
    · rename_i hprepared
      exact Option.some.inj h ▸ .send hprepared
    · nomatch h
  | arm id =>
    simp only [next] at h
    split at h
    · rename_i hsent
      exact Option.some.inj h ▸ .arm hsent
    · nomatch h
  | deliver id =>
    simp only [next] at h
    split at h
    · rename_i hwaiting hresult
      exact Option.some.inj h ▸ .deliver hwaiting hresult
    · nomatch h
  | timeOut id =>
    simp only [next] at h
    split at h
    · rename_i hwaiting
      obtain ⟨hpassed, h⟩ := Option.ite_none_right_eq_some.mp h
      exact Option.some.inj h ▸ .timeOut hwaiting hpassed
    · nomatch h
  | consumer w =>
    obtain ⟨b, hnext, rfl⟩ := Option.map_eq_some_iff.mp h
    exact .consumer hnext

/-- Before any command. -/
def start (now : Instant) (work : σ) : Exchange τ π σ where
  now := now
  api := fun _ ↦ none
  refused := []
  backend := ⟨[], [], .idle, work⟩

/-! ## What a step does to a request -/

/-- The ways the API moves on with a command, at the instant `now`. -/
inductive Advance (timeout now : Instant) : Option Waiting → Option Waiting → Prop
  | issue (command : Dict) : Advance timeout now none (some (.prepared command))
  | send (command : Dict) : Advance timeout now (some (.prepared command)) (some .sent)
  | arm : Advance timeout now (some .sent) (some (.waiting (now + timeout)))
  | deliver (deadline : Instant) (result : CommandResult) :
      Advance timeout now (some (.waiting deadline)) (some (.answered result))
  | timeOut {deadline : Instant} (hpassed : deadline ≤ now) :
      Advance timeout now (some (.waiting deadline)) (some (.timedOut deadline))

variable {svc timeout} {x y : Exchange τ π σ} {e : Event ε σ} {id : String}

theorem api_put (x : Exchange τ π σ) (id : String) (w : Waiting) (id' : String) :
    (x.put id w).api id' = if id' = id then some w else x.api id' :=
  Function.update_apply x.api id (some w) id'

theorem advance_put {w : Waiting} (h : Advance timeout x.now (x.api id) (some w)) (id' : String) :
    (x.put id w).api id' = x.api id' ∨
      Advance timeout x.now (x.api id') ((x.put id w).api id') := by
  rw [api_put]
  by_cases hid : id' = id
  · subst hid
    rw [if_pos rfl]
    exact .inr h
  · rw [if_neg hid]
    exact .inl rfl

/-- **Step lemma.** Time does not go back, and a request stays where it is or advances. -/
theorem next_cases (h : next svc timeout x e = some y) (id : String) :
    x.now ≤ y.now ∧ (y.api id = x.api id ∨ Advance timeout x.now (x.api id) (y.api id)) := by
  cases step_of_next h with
  | tick hduration => exact ⟨le_add_of_nonneg_right hduration, .inl rfl⟩
  | issue hnone => exact ⟨le_rfl, advance_put (hnone ▸ .issue _) id⟩
  | send hprepared => exact ⟨le_rfl, advance_put (hprepared ▸ .send _) id⟩
  | arm hsent => exact ⟨le_rfl, advance_put (hsent ▸ .arm) id⟩
  | deliver hwaiting => exact ⟨le_rfl, advance_put (hwaiting ▸ .deliver _ _) id⟩
  | timeOut hwaiting hpassed => exact ⟨le_rfl, advance_put (hwaiting ▸ .timeOut hpassed) id⟩
  | consumer => exact ⟨le_rfl, .inl rfl⟩

/-! ## Runs -/

/-- `send_and_wait` returned `None` for the command; the deadline it had. -/
def timedOutAt (x : Exchange τ π σ) (id : String) : Option Instant :=
  match x.api id with
  | some (.timedOut d) => some d
  | _ => none

theorem timedOutAt_eq_some_iff {d : Instant} :
    x.timedOutAt id = some d ↔ x.api id = some (.timedOut d) := by
  unfold timedOutAt
  split <;> simp_all

/-- The command timed out at `d`, which is past. -/
def Lapsed (id : String) (d : Instant) (x : Exchange τ π σ) : Prop :=
  x.api id = some (.timedOut d) ∧ d ≤ x.now

theorem lapsed_step {d : Instant} (h : next svc timeout x e = some y) (hx : Lapsed id d x) :
    Lapsed id d y := by
  obtain ⟨hnow, hsame | hadvance⟩ := next_cases h id
  · exact ⟨hsame.trans hx.1, hx.2.trans hnow⟩
  · rw [hx.1] at hadvance
    nomatch hadvance

/-- What timed out did so at its deadline or after. -/
def Punctual (x : Exchange τ π σ) : Prop :=
  ∀ id d, x.api id = some (.timedOut d) → d ≤ x.now

theorem punctual_start (now : Instant) (work : σ) :
    Punctual (start now work : Exchange τ π σ) := fun _ _ h ↦ nomatch h

theorem punctual_step (h : next svc timeout x e = some y) (hx : Punctual x) : Punctual y := by
  intro id d hd
  obtain ⟨hnow, hsame | hadvance⟩ := next_cases h id
  · exact (hx id d (hsame.symm.trans hd)).trans hnow
  · rw [hd] at hadvance
    generalize x.api id = before at hadvance
    rcases hadvance with _ | _ | _ | _ | hpassed
    exact hpassed.trans hnow

/-! ## The age of a command -/

variable {issued : String → Instant}

/-- The commands were issued at the instants `issued`: the API has counted its deadlines from then
on, and the entries say so. -/
structure Dated (timeout : Instant) (issued : String → Instant) (x : Exchange τ π σ) : Prop where
  api : ∀ id w, x.api id = some w → w.Issued timeout x.now (issued id)
  held : ∀ m, x.backend.Holds m →
    x.api m.commandId ≠ none ∧ issuedAt m.command = some (issued m.commandId)

variable (timeout issued) in
theorem dated_start (now : Instant) (work : σ) :
    Dated timeout issued (start now work : Exchange τ π σ) where
  api _ _ h := nomatch h
  held _ h := absurd (h.resolve_right nofun) List.not_mem_nil

theorem Dated.put (hx : Dated timeout issued x) {w : Waiting}
    (hw : w.Issued timeout x.now (issued id)) : Dated timeout issued (x.put id w) where
  api id' w' h := by
    rw [api_put] at h
    split at h
    · rename_i hid
      obtain rfl := Option.some.inj h
      rw [hid]
      exact hw
    · exact hx.api id' w' h
  held m hm := by
    obtain ⟨hknown, hdate⟩ := hx.held m hm
    refine ⟨?_, hdate⟩
    rw [api_put]
    split
    · simp
    · exact hknown

theorem Dated.issue (hx : Dated timeout issued x) (hnone : x.api id = none) (fields : Dict) :
    Dated timeout (Function.update issued id x.now) (x.put id (.prepared
      (("command_id", .str id) :: ("issued_at", .float (.fin x.now)) :: fields))) := by
  have hx' : Dated timeout (Function.update issued id x.now) x := by
    refine ⟨fun id' w h ↦ ?_, fun m hm ↦ ?_⟩
    · have hid : id' ≠ id := by
        rintro rfl
        rw [hnone] at h
        nomatch h
      rw [Function.update_of_ne hid]
      exact hx.api id' w h
    · obtain ⟨hknown, hdate⟩ := hx.held m hm
      have hid : m.commandId ≠ id := fun h ↦ hknown (h ▸ hnone)
      rw [Function.update_of_ne hid]
      exact ⟨hknown, hdate⟩
  refine hx'.put ⟨?_, ?_⟩
  · rw [Function.update_self]
  · rw [Function.update_self]
    rfl

/-- **Step lemma.** Whatever happens, every command keeps its date. -/
theorem Dated.step (hx : Dated timeout issued x) (h : next svc timeout x e = some y) :
    ∃ issued', Dated timeout issued' y := by
  cases step_of_next h with
  | tick hduration =>
    exact ⟨issued, fun id w hw ↦ (hx.api id w hw).mono (le_add_of_nonneg_right hduration), hx.held⟩
  | issue hnone => exact ⟨_, hx.issue hnone _⟩
  | @send id command hprepared =>
    obtain ⟨hpast, hdate⟩ := hx.api _ _ hprepared
    have hsent : Dated timeout issued (x.put id .sent) := hx.put hpast
    refine ⟨issued, hsent.api, ?_⟩
    rintro m (hm | hm)
    · rcases List.mem_append.mp hm with hm | hm
      · exact hsent.held m (.inl hm)
      · -- the new entry has the date of its command
        obtain rfl := List.mem_singleton.mp hm
        refine ⟨?_, hdate⟩
        simp [Exchange.put]
    · exact hsent.held m (.inr hm)
  | @arm id hsent =>
    have hpast : issued id ≤ x.now := hx.api _ _ hsent
    exact ⟨issued, hx.put (add_le_add_left hpast timeout)⟩
  | deliver => exact ⟨issued, hx.put trivial⟩
  | @timeOut id deadline hwaiting =>
    have hdeadline : issued id + timeout ≤ deadline := hx.api _ _ hwaiting
    have hout : Dated timeout issued (x.put id (.timedOut deadline)) := hx.put hdeadline
    exact ⟨issued, hout.api, hout.held⟩
  | consumer hnext =>
    exact ⟨issued, hx.api, fun m hm ↦ hx.held m (Backend.holds_next hnext hm)⟩

end Exchange

/-! ## From the check to the effect -/

/-- The entry whose command has passed the check, until its effect. -/
def Treatment.passed? : Treatment τ π → Option Entry
  | .checked m _ | .authorised m _ => some m
  | .idle | .received _ | .answering _ _ | .published _ => none

def Event.isCheck : Event ε σ → Bool
  | .consumer (.check _) => true
  | _ => false

/-- The exchange, and the instant at which the consumer last checked a command. -/
structure TimedExchange (τ π σ : Type) where
  exchange : Exchange τ π σ
  checkedAt : Instant

/-- The check refuses a command that is older than `limit`. -/
def RefusesOlder (svc : Service ε τ π σ) (limit : ε → PyFloat) : Prop :=
  ∀ env command t now checked, svc.now env = .fin now → issuedAt command = some t →
    (limit env).lt ((PyFloat.fin now).sub (.fin t)) = true → svc.check env command ≠ .ok checked

namespace TimedExchange

def next (x : TimedExchange τ π σ) (e : Event ε σ) : Option (TimedExchange τ π σ) :=
  (x.exchange.next svc timeout e).map fun y ↦
    ⟨y, if e.isCheck then x.exchange.now else x.checkedAt⟩

/-- Before any command. -/
def start (now : Instant) (work : σ) : TimedExchange τ π σ := ⟨.start now work, now⟩

/-- A run of the system, all of its steps meeting `C`. -/
abbrev Run (C : TimedExchange τ π σ → Event ε σ → Prop) : TimedExchange τ π σ →
    List (Event ε σ) → TimedExchange τ π σ → Prop :=
  Trace.Path (Trace.Stepping (next svc timeout) C)

/-- No command that timed out has an effect later, in the runs whose steps meet `C`. -/
def NeverLate (C : TimedExchange τ π σ → Event ε σ → Prop) : Prop :=
  ∀ now work es x id d es' y env, Run svc timeout C (start now work) es x →
    x.exchange.timedOutAt id = some d → Run svc timeout C x es' y →
      .consumer (.apply env id) ∉ es'

variable {svc timeout} {limit : ε → PyFloat} {δ : Instant} {x y : TimedExchange τ π σ}
  {e : Event ε σ} {id : String} {issued : String → Instant}

variable (timeout limit δ) in
/-- The delays: a command is checked while it is, by more than `δ`, younger than the API waits, or
once it is older than the limit of the consumer; its effect comes at most `δ` after the check. -/
def Timely (x : TimedExchange τ π σ) : Event ε σ → Prop
  | .consumer (.check env) =>
    ∀ m ∈ x.exchange.backend.treatment.entry?, ∀ t ∈ issuedAt m.command,
      x.exchange.now + δ < t + timeout ∨
        (limit env).lt ((PyFloat.fin x.exchange.now).sub (.fin t)) = true
  | .consumer (.apply _ _) => x.exchange.now ≤ x.checkedAt + δ
  | _ => True

instance (x : TimedExchange τ π σ) (e : Event ε σ) : Decidable (Timely timeout limit δ x e) :=
  match e with
  | .consumer (.check _) =>
    inferInstanceAs (Decidable (∀ m ∈ x.exchange.backend.treatment.entry?,
      ∀ t ∈ issuedAt m.command, _ ∨ _))
  | .consumer (.apply _ _) => inferInstanceAs (Decidable (_ ≤ _))
  | .consumer (.receive _) | .consumer (.authorise _) | .consumer .publish
  | .consumer .acknowledge | .consumer .crash | .consumer .trim | .consumer (.other _) | .tick _
  | .issue _ _ | .send _ | .arm _ | .deliver _ | .timeOut _ => .isTrue trivial

variable (timeout δ) in
/-- A command that has passed the check was younger than the API waits, by more than `δ`. -/
def Young (x : TimedExchange τ π σ) : Prop :=
  ∀ m ∈ x.exchange.backend.treatment.passed?, ∀ t ∈ issuedAt m.command,
    x.checkedAt + δ < t + timeout

theorem young_start (now : Instant) (work : σ) :
    Young timeout δ (start now work : TimedExchange τ π σ) := fun _ h ↦ nomatch h

/-- **Step lemma.** A command that is not young is old enough for the check to refuse it. -/
theorem young_step (hlimit : RefusesOlder svc limit) (htimely : Timely timeout limit δ x e)
    (h : next svc timeout x e = some y) (hx : Young timeout δ x) : Young timeout δ y := by
  obtain ⟨z, hz, rfl⟩ := Option.map_eq_some_iff.mp h
  cases Exchange.step_of_next hz with
  | tick | issue | send | arm | deliver | timeOut => exact hx
  | consumer hnext =>
    cases Backend.step_of_next hnext with
    | @check env m checked htreatment hnow hcheck =>
      intro m' hm' t ht
      obtain rfl := Option.some.inj hm'
      rcases htimely m (by rw [htreatment]; rfl) t ht with hyoung | hold
      · exact hyoung
      · exact absurd hcheck (hlimit env m.command t _ checked hnow ht hold)
    | @authorise env m checked authorised htreatment =>
      intro m' hm'
      obtain rfl := Option.some.inj hm'
      exact hx m (by rw [htreatment]; rfl)
    | receive | refuseCheck | refuseAuthorise | apply | publish | acknowledge | crash =>
      exact fun _ hm ↦ nomatch hm
    | trim | other => exact hx

/-- An effect comes before the deadline the API has set, if it has set one. -/
theorem lt_deadline (hdated : x.exchange.Dated timeout issued) (hyoung : Young timeout δ x)
    {env : ε} (htimely : Timely timeout limit δ x (.consumer (.apply env id)))
    (h : next svc timeout x (.consumer (.apply env id)) = some y) {d : Instant}
    (hd : x.exchange.api id = some (.timedOut d)) : x.exchange.now < d := by
  obtain ⟨z, hz, rfl⟩ := Option.map_eq_some_iff.mp h
  cases Exchange.step_of_next hz with
  | consumer hnext =>
    cases Backend.step_of_next hnext with
    | @apply _ m authorised htreatment =>
      have hentry : x.exchange.backend.treatment.entry? = some m := by rw [htreatment]; rfl
      obtain ⟨-, hdate⟩ := hdated.held m (.inr hentry)
      have hdeadline : issued m.commandId + timeout ≤ d := hdated.api _ _ hd
      calc x.exchange.now ≤ x.checkedAt + δ := htimely
        _ < issued m.commandId + timeout := hyoung m (by rw [htreatment]; rfl) _ hdate
        _ ≤ d := hdeadline

/-- What the runs keep. -/
def Sound (timeout δ : Instant) (x : TimedExchange τ π σ) : Prop :=
  (∃ issued, x.exchange.Dated timeout issued) ∧ Young timeout δ x ∧ x.exchange.Punctual

theorem sound_step (hlimit : RefusesOlder svc limit)
    (h : Trace.Stepping (next svc timeout) (Timely timeout limit δ) x e y)
    (hx : Sound timeout δ x) : Sound timeout δ y := by
  obtain ⟨⟨issued, hdated⟩, hyoung, hpunctual⟩ := hx
  refine ⟨?_, young_step hlimit h.1 h.2 hyoung, ?_⟩
  · obtain ⟨z, hz, rfl⟩ := Option.map_eq_some_iff.mp h.2
    exact hdated.step hz
  · obtain ⟨z, hz, rfl⟩ := Option.map_eq_some_iff.mp h.2
    exact Exchange.punctual_step hz hpunctual

theorem not_mem_of_lapsed (hlimit : RefusesOlder svc limit) {d : Instant} {es : List (Event ε σ)}
    (hlapsed : x.exchange.Lapsed id d) (hx : Sound timeout δ x)
    (hrun : Run svc timeout (Timely timeout limit δ) x es y) (env : ε) :
    .consumer (.apply env id) ∉ es := by
  induction hrun with
  | nil x => exact List.not_mem_nil
  | @cons x z y e es hstep _ ih =>
    rw [List.mem_cons, not_or]
    constructor
    · rintro rfl
      obtain ⟨⟨issued, hdated⟩, hyoung, -⟩ := hx
      have hbefore := lt_deadline hdated hyoung hstep.1 hstep.2 hlapsed.1
      exact absurd hbefore (not_lt.mpr hlapsed.2)
    · have hkept : z.exchange.Lapsed id d := by
        obtain ⟨w, hw, rfl⟩ := Option.map_eq_some_iff.mp hstep.2
        exact Exchange.lapsed_step hw hlapsed
      exact ih hkept (sound_step hlimit hstep hx)

theorem neverLate_of_refusesOlder (hlimit : RefusesOlder svc limit) :
    NeverLate svc timeout (Timely timeout limit δ) := by
  intro now work es x id d es' y env hrun hout hrest
  have hsound : Sound timeout δ x := by
    refine hrun.invariant (Sound timeout δ) (fun hs hstep ↦ sound_step hlimit hstep hs) ?_
    exact ⟨⟨fun _ ↦ now, Exchange.dated_start timeout _ now work⟩, young_start now work,
      Exchange.punctual_start now work⟩
  have htimedOut := Exchange.timedOutAt_eq_some_iff.mp hout
  exact not_mem_of_lapsed hlimit ⟨htimedOut, hsound.2.2 id d htimedOut⟩ hsound hrest env

end TimedExchange

end

/-! ## The two consumers -/

theorem commandExpired_of_issuedAt {texts : Texts} {now t : Instant} {maxAge : PyFloat}
    {command : Dict} (h : issuedAt command = some t) :
    commandExpired texts (.fin now) maxAge command =
      .ok (maxAge.lt ((PyFloat.fin now).sub (.fin t))) := by
  have hraw : command.get "issued_at" = .float (.fin t) := by
    unfold issuedAt at h
    split at h
    · rename_i hraw
      rw [hraw, Option.some.inj h]
      rfl
    · nomatch h
  rw [commandExpired, hraw]
  rfl

theorem Writer.refusesOlder : RefusesOlder Writer.service WriterEnv.maxAge := by
  intro env command t now checked hnow hissued hold hcheck
  have hexpired : Writer.expired env command = .ok true := by
    rw [Writer.expired, show env.now = .fin now from hnow, commandExpired_of_issuedAt hissued, hold]
  simp only [Writer.service, Writer.check, hexpired] at hcheck
  split at hcheck
  · cases hcheck
  · split at hcheck <;> cases hcheck

theorem AlarmCommands.refusesOlder :
    RefusesOlder AlarmCommands.service AlarmCommands.AckEnv.maxAge := by
  intro env command t now checked hnow hissued hold hcheck
  have hexpired : commandExpired env.texts env.now env.maxAge command = .ok true := by
    rw [show env.now = .fin now from hnow, commandExpired_of_issuedAt hissued, hold]
  simp only [AlarmCommands.service, AlarmCommands.check, hexpired] at hcheck
  split at hcheck <;> cases hcheck

namespace TimedExchange

/-- **A command that timed out has no effect later**, be it a write or an acknowledgement, in every
run in which no command is checked at an age between what the API waits, less `δ`, and the limit of
the consumer, and an effect comes at most `δ` after its check. -/
theorem timed_out_never_applied (timeout δ : Instant) :
    NeverLate Writer.service timeout (Timely timeout WriterEnv.maxAge δ) ∧
      NeverLate AlarmCommands.service timeout (Timely timeout AlarmCommands.AckEnv.maxAge δ) :=
  ⟨neverLate_of_refusesOlder Writer.refusesOlder,
    neverLate_of_refusesOlder AlarmCommands.refusesOlder⟩

/-! ## A collector that starts late -/

open Writer

/-- A write is sent at 1000 and given up at its deadline. -/
def givenUp : List (Event WriterEnv WriterState) :=
  [.issue "c1" (writeFields (.fin 21)), .send "c1", .arm "c1", .tick 10, .timeOut "c1"]

/-- The collector reads it when it is forty seconds old, and refuses it. -/
def readTooLate : List (Event WriterEnv WriterState) :=
  [.tick 30, .consumer (.receive 0), .consumer (.check { setpointEnv with now := .fin 1040 }),
    .consumer .publish, .consumer .acknowledge]

theorem timed_out_never_applied_refused :
    ∃ x y, Run Writer.service writeTimeoutS (Timely writeTimeoutS WriterEnv.maxAge 5)
        (start 1000 .empty) givenUp x ∧
      x.exchange.timedOutAt "c1" = some 1010 ∧
      Run Writer.service writeTimeoutS (Timely writeTimeoutS WriterEnv.maxAge 5) x readTooLate y ∧
      .consumer (.apply setpointEnv "c1") ∉ readTooLate := by
  let step := fun (x : TimedExchange _ _ _) (e : Event WriterEnv WriterState) ↦
    if Timely writeTimeoutS WriterEnv.maxAge 5 x e then next Writer.service writeTimeoutS x e
    else none
  have hout : ((Trace.exec step (start 1000 .empty) givenUp).bind fun x ↦
      x.exchange.timedOutAt "c1") = some 1010 := by decide +kernel
  have hrest : (Trace.exec step (start 1000 .empty) (givenUp ++ readTooLate)).isSome = true := by
    decide +kernel
  obtain ⟨x, hx, hout⟩ := Option.bind_eq_some_iff.mp hout
  rw [Trace.exec_append, hx, Option.bind_some] at hrest
  obtain ⟨y, hy⟩ := Option.isSome_iff_exists.mp hrest
  have hrun : Run Writer.service writeTimeoutS (Timely writeTimeoutS WriterEnv.maxAge 5)
      (start 1000 .empty) givenUp x := .of_exec_checked hx
  have hrun' : Run Writer.service writeTimeoutS (Timely writeTimeoutS WriterEnv.maxAge 5)
      x readTooLate y := .of_exec_checked hy
  exact ⟨x, y, hrun, hout, hrun',
    (timed_out_never_applied writeTimeoutS 5).1 _ _ _ _ _ _ _ _ _ hrun hout hrun'⟩

/-- The collector reads it five seconds later, when it is fifteen seconds old. -/
def readLater : List (Event WriterEnv WriterState) :=
  let env := { setpointEnv with now := .fin 1015 }
  [.tick 5, .consumer (.receive 0), .consumer (.check env), .consumer (.authorise env),
    .consumer (.apply env "c1")]

/-- The age is accepted, and the command takes effect after the API has given it up. -/
theorem applied_after_time_out :
    ¬ NeverLate Writer.service writeTimeoutS fun _ _ ↦ True := by
  intro hnever
  have hout : ((Trace.exec (next Writer.service writeTimeoutS) (start 1000 .empty) givenUp).bind
      fun x ↦ x.exchange.timedOutAt "c1") = some 1010 := by decide +kernel
  have hrest : (Trace.exec (next Writer.service writeTimeoutS) (start 1000 .empty)
      (givenUp ++ readLater)).isSome = true := by decide +kernel
  obtain ⟨x, hx, hout⟩ := Option.bind_eq_some_iff.mp hout
  rw [Trace.exec_append, hx, Option.bind_some] at hrest
  obtain ⟨y, hy⟩ := Option.isSome_iff_exists.mp hrest
  refine hnever 1000 .empty givenUp x "c1" 1010 readLater y { setpointEnv with now := .fin 1015 }
    (.of_exec (fun _ _ _ ↦ trivial) hx) hout (.of_exec (fun _ _ _ ↦ trivial) hy) ?_
  simp [readLater]

end TimedExchange

end Superviseur
