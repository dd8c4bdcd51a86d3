import Superviseur.Collector.Acceptance

/-!
# Writes are traced and reported

Whatever an entry of the stream meets on its way is turned into an answer. What the driver was asked
must then be in the audit log, and the answer must say what the driver did. Both hold of an entry
unless its command is accepted and one of the last two calls raises: the driver's own, or the
insertion of the row. The answer is then an error, whatever the controller did with the value.
-/

namespace Superviseur

/-- The driver reported success. -/
def DriverCall.succeeded (call : DriverCall) : Bool :=
  match call.outcome with
  | .ok result => result.ok
  | .error _ => false

/-- The outcome of a call, as the audit log words it. -/
def DriverCall.text (call : DriverCall) : String :=
  match call.outcome with
  | .ok result => Writer.resultText result
  | .error exc => exc

namespace Writer

variable {env : WriterEnv} {bus : BusEnv} {message : StreamMessage} {command : Dict}
  {request : Request} {target : WriteTarget} {result : WriteResult}

/-! ## The last two calls -/

/-- The driver returns and the row is inserted, for a command that was accepted. -/
def Recorded (env : WriterEnv) (request : Request) (target : WriteTarget) : Prop :=
  ∃ result, (env.write target.ref request.value request.priority).2 = .ok result ∧
    env.addAudit (request.auditRow env.texts (some target) result) = .ok ()

theorem answer_of_recorded (h : Accepted env command request target)
    (hwrite : (env.write target.ref request.value request.priority).2 = .ok result)
    (haudit : env.addAudit (request.auditRow env.texts (some target) result) = .ok ())
    (w : WriterState) :
    answer env command w = .ok ⟨result.ok, result.error⟩
      (recorded env (called w (driverCall env request target))
        (request.auditRow env.texts (some target) result) target result) := by
  have houtcome : (driverCall env request target).outcome = .ok result := hwrite
  simp only [answer, EState.bind_apply, execute_of_accepted h, houtcome, haudit,
    EState.pure_apply]

theorem audits_of_not_recorded (h : Accepted env command request target)
    (hnot : ¬ Recorded env request target) (w : WriterState) :
    (EState.after (answer env command) w).audits = w.audits := by
  unfold EState.after
  simp only [answer, EState.bind_apply, execute_of_accepted h]
  rcases houtcome : (driverCall env request target).outcome with exc | result
  · rfl
  · rcases haudit : env.addAudit (request.auditRow env.texts (some target) result) with exc | _
    · simp only [haudit]
      rfl
    · exact absurd ⟨result, houtcome, haudit⟩ hnot

theorem calls_answer (w : WriterState) :
    (EState.after (answer env command) w).calls = (EState.after (execute env command) w).calls := by
  unfold EState.after
  simp only [answer, EState.bind_apply]
  rcases execute env command w with ⟨result, w'⟩ | ⟨exc, w'⟩ <;> rfl

/-! ## An entry -/

/-- The writer after an entry, its log started with it. -/
def treated (env : WriterEnv) (bus : BusEnv) (message : StreamMessage) : Consumer WriterState :=
  EState.after (process env bus message) ⟨.empty, [], []⟩

/-- What is owed on an entry: a row that carries the outcome of the driver, and an answer that
agrees with it. -/
structure Accounted (env : WriterEnv) (bus : BusEnv) (message : StreamMessage) : Prop where
  traced : ∀ call ∈ (treated env bus message).work.calls,
    ∃ row ∈ (treated env bus message).work.audits, row.action = "point.write" ∧
      row.value = call.value ∧ row.priority = call.priority ∧ row.result = call.text
  error : ∀ r ∈ (treated env bus message).results, r.status = "error" →
    ∀ call ∈ (treated env bus message).work.calls, call.succeeded = false
  ok : ∀ r ∈ (treated env bus message).results, r.status = "ok" →
    ∃ call ∈ (treated env bus message).work.calls, call.succeeded = true

theorem treated_of_command (env : WriterEnv) (bus : BusEnv) (h : message.command = some command) :
    (treated env bus message).work = EState.after (answer env command) .empty ∧
      ∀ r ∈ (treated env bus message).results,
        ∃ id, r = (answerOf (answer env command .empty)).toResult id := by
  have hserve := serve_of_command env.texts (answer env) h .empty
  obtain ⟨hwork, hresults⟩ := after_process env.texts bus (answer env) message ⟨.empty, [], []⟩
  rw [hserve] at hwork hresults
  exact ⟨hwork, fun r hr ↦ (hresults r hr).resolve_left List.not_mem_nil⟩

/-- An entry that does not call the driver owes a refusal, and nothing else. -/
theorem accounted_of_idle (hcalls : (treated env bus message).work.calls = [])
    (hresults : ∀ r ∈ (treated env bus message).results, r.status = "error") :
    Accounted env bus message where
  traced call hcall := by
    rw [hcalls] at hcall
    exact absurd hcall List.not_mem_nil
  error r _ _ call hcall := by
    rw [hcalls] at hcall
    exact absurd hcall List.not_mem_nil
  ok r hr hok := by
    rw [hresults r hr] at hok
    exact absurd hok (by decide)

theorem accounted_of_no_command (h : message.command = none) : Accounted env bus message := by
  obtain ⟨exc, hserve⟩ := serve_of_no_command env.texts (answer env) h .empty
  obtain ⟨hwork, hresults⟩ := after_process env.texts bus (answer env) message ⟨.empty, [], []⟩
  rw [hserve] at hwork hresults
  refine accounted_of_idle ?_ fun r hr ↦ ?_
  · exact congrArg WriterState.calls hwork
  · obtain ⟨id, rfl⟩ := (hresults r hr).resolve_left List.not_mem_nil
    exact (Answer.status_error_iff _ id).mpr rfl

theorem accounted_of_not_accepted (h : message.command = some command)
    (hnot : ∀ request target, ¬ Accepted env command request target) :
    Accounted env bus message := by
  obtain ⟨hcalls, hrefused⟩ := execute_of_not_accepted hnot .empty
  obtain ⟨hwork, hresults⟩ := treated_of_command env bus h
  refine accounted_of_idle ?_ fun r hr ↦ ?_
  · rw [hwork, calls_answer, hcalls]
    rfl
  · obtain ⟨id, rfl⟩ := hresults r hr
    rw [Answer.status_error_iff, answer, EState.bind_apply]
    rcases hrun : execute env command .empty with ⟨result, w⟩ | ⟨exc, w⟩
    · exact hrefused result w hrun
    · rfl

theorem accounted_of_recorded (h : message.command = some command)
    (hacc : Accepted env command request target) (hrecorded : Recorded env request target) :
    Accounted env bus message := by
  obtain ⟨result, hwrite, haudit⟩ := hrecorded
  obtain ⟨hwork, hresults⟩ := treated_of_command env bus h
  have hanswer := answer_of_recorded hacc hwrite haudit .empty
  have hcalls : (treated env bus message).work.calls = [driverCall env request target] := by
    rw [hwork, EState.after, hanswer]
    rfl
  have haudits : (treated env bus message).work.audits =
      [request.auditRow env.texts (some target) result] := by
    rw [hwork, EState.after, hanswer]
    rfl
  have hsucceeded : (driverCall env request target).succeeded = result.ok := by
    simp only [DriverCall.succeeded, driverCall, hwrite]
  have htext : (driverCall env request target).text = resultText result := by
    simp only [DriverCall.text, driverCall, hwrite]
  rw [hanswer] at hresults
  refine ⟨fun call hcall ↦ ?_, fun r hr hstatus call hcall ↦ ?_, fun r hr hstatus ↦ ?_⟩
  · rw [hcalls, List.mem_singleton] at hcall
    subst hcall
    refine ⟨_, by rw [haudits]; exact List.mem_singleton_self _, rfl, rfl, rfl, ?_⟩
    rw [htext]
    rfl
  · rw [hcalls, List.mem_singleton] at hcall
    subst hcall
    obtain ⟨id, rfl⟩ := hresults r hr
    rw [hsucceeded]
    exact (Answer.status_error_iff _ id).mp hstatus
  · obtain ⟨id, rfl⟩ := hresults r hr
    refine ⟨_, by rw [hcalls]; exact List.mem_singleton_self _, ?_⟩
    rw [hsucceeded]
    exact (Answer.status_ok_iff _ id).mp hstatus

/-- **A write is traced and truthfully reported exactly when it is recorded.** An entry is accounted
for if and only if its command, should it be accepted, gets its answer from the driver and its row
in the audit log. -/
theorem write_accounted_iff (env : WriterEnv) (bus : BusEnv) (message : StreamMessage) :
    Accounted env bus message ↔
      ∀ command request target, message.command = some command →
        Accepted env command request target → Recorded env request target := by
  constructor
  · intro haccounted command request target hcommand hacc
    by_contra hnot
    obtain ⟨hwork, -⟩ := treated_of_command env bus hcommand
    obtain ⟨row, hrow, -⟩ := haccounted.traced (driverCall env request target) (by
      rw [hwork, calls_answer, calls_of_accepted hacc]
      exact List.mem_append_right _ (List.mem_singleton_self _))
    rw [hwork, audits_of_not_recorded hacc hnot] at hrow
    exact absurd hrow List.not_mem_nil
  · intro hrecorded
    rcases hcommand : message.command with - | command
    · exact accounted_of_no_command hcommand
    · rcases accepted_or_not env command with ⟨request, target, hacc⟩ | hnot
      · exact accounted_of_recorded hcommand hacc (hrecorded command request target hcommand hacc)
      · exact accounted_of_not_accepted hcommand hnot

/-- The controller acknowledges a write and the database is lost before the row is inserted. -/
def unrecordedEnv : WriterEnv :=
  { setpointEnv with addAudit := fun _ ↦ .error "connection is closed" }

/-- The write that took place is announced as an error, and has no row. -/
theorem done_but_unaccounted :
    ¬ Accounted unrecordedEnv ⟨fun _ ↦ .ok (), fun _ ↦ .ok ()⟩
      ⟨"1-0", .ok (.obj (writeCommand (.fin 21)))⟩ := by
  intro haccounted
  have hin : InBounds setpoint (.fin 21) := by
    refine ⟨fun m hm ↦ ?_, fun m hm ↦ ?_⟩
    · obtain rfl := Option.mem_some_iff.mp hm
      decide
    · obtain rfl := Option.mem_some_iff.mp hm
      decide
  have hacc : Accepted unrecordedEnv (writeCommand (.fin 21)) _ _ :=
    accepted_writeCommand _ hin setpointEnv.write _
  obtain ⟨hwork, -⟩ := treated_of_command unrecordedEnv ⟨fun _ ↦ .ok (), fun _ ↦ .ok ()⟩
    (show StreamMessage.command ⟨"1-0", .ok (.obj (writeCommand (.fin 21)))⟩ = _ from rfl)
  obtain ⟨row, hrow, -⟩ := haccounted.traced (driverCall unrecordedEnv _ _) (by
    rw [hwork, calls_answer, calls_of_accepted hacc]
    exact List.mem_singleton_self _)
  rw [hwork, audits_of_not_recorded hacc (by rintro ⟨result, -, ⟨⟩⟩)] at hrow
  exact absurd hrow List.not_mem_nil

end Writer

end Superviseur
