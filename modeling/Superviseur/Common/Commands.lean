import Superviseur.Library.EState
import Superviseur.Library.Json

/-!
# Consumers of commands

The collector and the alarm engine each read commands from a Redis stream, and treat an entry in the
same way: decode it, execute the command, publish the answer on the channel of the command, and
acknowledge the entry. Only the execution is their own; what it raises is caught and becomes an
answer, and what it had done by then stays done.
-/

namespace Superviseur

/-- What the execution of a command answers. -/
structure Answer where
  ok : Bool
  error : Option String
  deriving DecidableEq

/-- An entry of a stream; `data` is its field of that name, decoded. -/
structure StreamMessage where
  id : String
  data : Except String Json

/-- The message published on the channel of a command. -/
structure CommandResult where
  commandId : String
  status : String
  message : Option String
  deriving DecidableEq

/-- A consumer at work: its own state, the answers it published, the entries it acknowledged. -/
structure Consumer (σ : Type) where
  work : σ
  results : List CommandResult
  acked : List String

/-- Where the calls to Redis raise. -/
structure BusEnv where
  publish : CommandResult → Except String Unit
  xack : String → Except String Unit

section

variable {σ : Type} (texts : Texts) (bus : BusEnv) (execute : Dict → EStateM String σ Answer)

/-- The answer to a command whose treatment raised `exc`. -/
def invalidCommand (exc : String) : Answer := ⟨false, some s!"commande invalide: {exc}"⟩

/-- The `try` block of `process`: `command_id` as it stands at its end, and the answer. -/
def serve (data : Except String Json) (s : σ) : String × Answer × σ :=
  match data with
  | .ok (.obj command) =>
    match Dict.item command "command_id" with
    | .ok id =>
      match execute command s with
      | .ok answer s' => (id.toStr texts, answer, s')
      | .error exc s' => (id.toStr texts, invalidCommand exc, s')
    | .error exc => ("", invalidCommand exc, s)
  | .ok other => ("", invalidCommand other.notSubscriptable, s)
  | .error exc => ("", invalidCommand exc, s)

/-- The command is older than the consumer accepts; one without `issued_at` never is. -/
def commandExpired (now maxAge : PyFloat) (command : Dict) : Except String Bool :=
  match command.get "issued_at" with
  | .null => .ok false
  | raw => do return maxAge.lt (now.sub (← raw.toFloat texts))

/-- The message that announces an answer. -/
def Answer.toResult (answer : Answer) (commandId : String) : CommandResult where
  commandId := commandId
  status := if answer.ok then "ok" else "error"
  message := answer.error

theorem Answer.status_error_iff (answer : Answer) (id : String) :
    (answer.toResult id).status = "error" ↔ answer.ok = false := by
  rcases h : answer.ok <;> simp [Answer.toResult, h]

theorem Answer.status_ok_iff (answer : Answer) (id : String) :
    (answer.toResult id).status = "ok" ↔ answer.ok = true := by
  rcases h : answer.ok <;> simp [Answer.toResult, h]

/-- The publication of the answer, for a command that has an identifier. -/
def publishAnswer (commandId : String) (answer : Answer) : EStateM String (Consumer σ) Unit :=
  if commandId = "" then pure ()
  else do
    EState.call (bus.publish (answer.toResult commandId))
    modify fun c ↦ { c with results := c.results ++ [answer.toResult commandId] }

/-- `xack`. -/
def acknowledgeEntry (id : String) : EStateM String (Consumer σ) Unit := do
  EState.call (bus.xack id)
  modify fun c ↦ { c with acked := c.acked ++ [id] }

/-- `process`. -/
def process (message : StreamMessage) : EStateM String (Consumer σ) Unit := do
  let (commandId, answer, work) := serve texts execute message.data (← get).work
  modify fun c ↦ { c with work := work }
  publishAnswer bus commandId answer
  acknowledgeEntry bus message.id

end

/-! ## Stages of an execution -/

/-- An execution in the stages between which its consumer waits: the checks up to the age of the
command, those made with the rights of the user, and the effect. A check that fails gives the
answer, an exception included. -/
structure Service (ε τ π σ : Type) where
  /-- The clock the age is measured with. -/
  now : ε → PyFloat
  check : ε → Dict → Except Answer τ
  authorise : ε → Dict → τ → Except Answer π
  apply : ε → π → σ → Answer × σ

/-- The stages of an execution, one after the other. -/
def Service.run {ε τ π σ : Type} (svc : Service ε τ π σ) (env : ε) (command : Dict) (s : σ) :
    Answer × σ :=
  match svc.check env command with
  | .error answer => (answer, s)
  | .ok checked =>
    match svc.authorise env command checked with
    | .error answer => (answer, s)
    | .ok authorised => svc.apply env authorised s

/-! ## What an entry leads to -/

/-- The command an entry has executed: an object that has a `command_id`. -/
def StreamMessage.command (message : StreamMessage) : Option Dict :=
  match message.data with
  | .ok (.obj command) =>
    match Dict.item command "command_id" with
    | .ok _ => some command
    | .error _ => none
  | _ => none

/-- The answer to an execution. -/
def answerOf {σ : Type} : EStateM.Result String σ Answer → Answer
  | .ok answer _ => answer
  | .error exc _ => invalidCommand exc

section

variable {σ : Type} (texts : Texts) (bus : BusEnv) (execute : Dict → EStateM String σ Answer)
  {message : StreamMessage}

theorem serve_of_command {command : Dict} (h : message.command = some command) (s : σ) :
    (serve texts execute message.data s).2 =
      (answerOf (execute command s), EState.after (execute command) s) := by
  unfold StreamMessage.command at h
  split at h
  · rename_i fields hdata
    rcases hid : Dict.item fields "command_id" with exc | id
    · simp [hid] at h
    · simp only [hid, Option.some.injEq] at h
      subst h
      simp only [serve, hdata, hid, EState.after]
      rcases execute fields s with ⟨answer, s'⟩ | ⟨exc, s'⟩ <;> rfl
  · simp at h

theorem serve_of_no_command (h : message.command = none) (s : σ) :
    ∃ exc, (serve texts execute message.data s).2 = (invalidCommand exc, s) := by
  unfold StreamMessage.command at h
  unfold serve
  split at h
  · rename_i fields hdata
    rcases hid : Dict.item fields "command_id" with exc | id
    · exact ⟨exc, by simp [hdata, hid]⟩
    · simp [hid] at h
  · rename_i hdata
    rcases hm : message.data with exc | command
    · exact ⟨exc, rfl⟩
    · rcases command with - | _ | _ | _ | _ | _ | fields
      case obj => exact absurd hm (hdata fields)
      all_goals exact ⟨_, rfl⟩

/-- The state after an entry: the work is that of the execution, and at most the answer to it is
published. -/
theorem after_process (message : StreamMessage) (c : Consumer σ) :
    (EState.after (process texts bus execute message) c).work =
        (serve texts execute message.data c.work).2.2 ∧
      ∀ r ∈ (EState.after (process texts bus execute message) c).results, r ∈ c.results ∨
        ∃ id, r = (serve texts execute message.data c.work).2.1.toResult id := by
  rcases hserve : serve texts execute message.data c.work with ⟨id, answer, work⟩
  unfold EState.after process
  simp only [EState.bind_apply, EState.get_apply, EState.modify_apply, hserve, publishAnswer,
    acknowledgeEntry]
  by_cases hid : id = ""
  · rcases hack : bus.xack message.id with exc | _
    all_goals simpa [hid, hack] using fun r hr ↦ Or.inl hr
  · rcases hpub : bus.publish (answer.toResult id) with exc | _
    · simpa [hid, hpub] using fun r hr ↦ Or.inl hr
    · have hannounced : ∀ r ∈ c.results ++ [answer.toResult id],
          r ∈ c.results ∨ ∃ id, r = answer.toResult id := by
        intro r hr
        rcases List.mem_append.mp hr with hr | hr
        · exact .inl hr
        · exact .inr ⟨id, List.mem_singleton.mp hr⟩
      rcases hack : bus.xack message.id with exc | _
      all_goals simpa [hid, hpub, hack] using hannounced

end

end Superviseur
