import Superviseur.Alarms.Mirror

/-!
# The event stream mirrors the table

Over a run in which the bus delivers, every message published on `alarm.event` carries the fields
its row has right after the write, with three exceptions. A reload that closes an orphan publishes
its identifier and its state only; the acknowledgement of an active alarm repeats the date of an end
that could not be stored; and where the row has no value, a message gives the last one known. What a
step must meet to have none of them is `Discloses`.
-/

namespace Superviseur

/-! ## The condition -/

/-- The operation closes no orphan, acknowledges no active alarm with a date of end that its row
does not have, and changes the state of no alarm stored without a value once one is known. -/
def Discloses (env : Env) (w : AlarmSystem) : Op → Prop
  | .load => (∀ call ∈ [Call.loadRules, .openEvents], env.fails call = false) →
    (∀ e ∈ (orphansOf env w).head?, env.fails (.updateEvent e.ruleId) = true) ∧
      (orphansOf env w = [] →
        (∀ call ∈ [Call.latestValues, .devicesOnline], env.fails call = false) →
        ∀ rule ∈ freshRules env w, ∀ rt ∈ (installed env w).find? rule,
          rt.Unvalued env (rt.initialCondition env) (rt.initialValue env))
  | .acknowledge eventId _ => env.fails .userLogin = false →
    ∀ rt ∈ w.engine.rules.find? fun rt ↦ rt.eventId = some eventId,
      rt.machine.acknowledge.2.isSome = true → env.fails (.updateEvent rt.record.id) = false →
        (rt.raisedValue = none → rt.value = none) ∧
          (rt.machine.state = .activeUnacked →
            ∀ e ∈ w.services.events, e.id = eventId → rt.clearedAt = e.clearedAt)
  | op => ∀ rule ∈ w.targets op, ∀ rt ∈ w.engine.find? rule,
    rt.Unvalued env (rt.conditionAt env op) op.value

/-- The bus delivers, and the operation discloses. -/
def Faithful (env : Env) (op : Op) (w : AlarmSystem) : Prop := env.Delivers ∧ Discloses env w op

instance (rt : RuleRuntime) (env : Env) (condition : Option Bool) (value : Option PyFloat) :
    Decidable (rt.Unvalued env condition value) :=
  inferInstanceAs (Decidable (_ → _ → _ → _ → _ ∧ _))

instance (env : Env) (w : AlarmSystem) : ∀ op, Decidable (Discloses env w op)
  | .load => inferInstanceAs (Decidable ((∀ call ∈ _, _) → _ ∧ (_ → (∀ call ∈ _, _) → _)))
  | .acknowledge _ _ => inferInstanceAs (Decidable (_ → ∀ rt ∈ _, _ → _ → _ ∧ _))
  | .onValue _ _ => inferInstanceAs (Decidable (∀ rule ∈ _, ∀ rt ∈ _, _))
  | .onDeviceStatus _ _ => inferInstanceAs (Decidable (∀ rule ∈ _, ∀ rt ∈ _, _))
  | .onBacnetEvent _ _ _ _ => inferInstanceAs (Decidable (∀ rule ∈ _, ∀ rt ∈ _, _))
  | .tick => inferInstanceAs (Decidable (∀ rule ∈ _, ∀ rt ∈ _, _))
  | .restart => inferInstanceAs (Decidable (∀ rule ∈ _, ∀ rt ∈ _, _))

section Step

variable {env : Env} {w : AlarmSystem}

/-! ## Acknowledgements -/

theorem acked_mirrored (henv : env.Delivers) (hw : Copied w) {rt : RuleRuntime}
    (hrt : rt ∈ w.engine.rules) {t : Transition} (hedge : t.IsEdge) (hkind : t.kind = .acked)
    (hfrom : t.fromState = rt.machine.state) (ackedBy : Option String) {eventId : EventId}
    (hack : env.fails (.updateEvent rt.record.id) = false →
      (rt.raisedValue = none → rt.value = none) ∧ (rt.machine.state = .activeUnacked →
        ∀ e ∈ w.services.events, e.id = eventId → rt.clearedAt = e.clearedAt))
    (heventId : rt.eventId = some eventId) :
    MirroredTurn rt.record.id w.services (rollback t.fromState
      (persist env t ackedBy ⟨rt.setState t.toState, w.services⟩)) := by
  rcases hw.consistent.agrees rt hrt with ⟨-, hid, -⟩ | ⟨e, -, hid, hopen, -, -⟩
  · rw [hid] at heventId
    cases heventId
  · have he : e ∈ w.services.openOf rt.record.id := hopen ▸ List.mem_singleton_self e
    have hcopy := hw.copies rt hrt e he
    rw [hid, Option.some.injEq] at heventId
    refine change_mirrored henv hw.consistent.sound hedge hid hopen hcopy
      ⟨⟨rfl, rfl, rfl⟩, rfl, rfl, rfl, rfl⟩ hfrom rfl (fun hf ↦ (hack hf).1) fun hf _ ↦ ?_
    -- a known end is in the copy, and before it the copy is right by hypothesis
    have hstates : rt.machine.state = .activeUnacked ∨ rt.machine.state = .clearedUnacked := by
      rw [← hfrom]
      obtain ⟨from', to', kind⟩ := t
      cases hedge <;> simp_all
    rcases hstates with hstate | hstate
    · exact (hack hf).2 hstate e (Services.mem_openOf.mp he).1 heventId
    · exact hcopy.clearedAt hstate

theorem acknowledge_mirrored (henv : env.Delivers) (hw : Copied w) (eventId : EventId)
    (user : UserId) (hack : Discloses env w (.acknowledge eventId user)) :
    Copied (acknowledge env eventId user w).1 ∧
      Mirrored w.services (acknowledge env eventId user w).1.services := by
  unfold acknowledge
  cases hfind : w.engine.rules.find? fun rt ↦ rt.eventId = some eventId with
  | none => exact ⟨hw, .refl _⟩
  | some rt =>
    have hrt : rt ∈ w.engine.rules := List.mem_of_find?_eq_some hfind
    have heventId : rt.eventId = some eventId := by simpa using List.find?_some hfind
    rcases rt.machine.acknowledge_cases with hnone | ⟨t, hsome, hedge, hkind, hfrom⟩
    · dsimp only
      rw [hnone]
      exact ⟨hw, .refl _⟩
    · dsimp only
      rw [hsome]
      have ha := hw.consistent.agrees rt hrt
      have hkeeps : rt.Keeps (rt.setState t.toState) := ⟨⟨rfl, rfl, rfl⟩, rfl, rfl, rfl, rfl⟩
      have hprogress := (persistAck_progress henv ha hedge hfrom user).1
      have hturn : MirroredTurn rt.record.id w.services (rollback t.fromState
          (persistAck env t user ⟨rt.setState t.toState, w.services⟩)) := by
        cases hlogin : env.fails .userLogin with
        | true =>
          have hrefused : persistAck env t user ⟨rt.setState t.toState, w.services⟩
              = .error (.unavailable .userLogin) ⟨rt.setState t.toState, w.services⟩ := by
            simp [persistAck, hlogin]
          -- the login cannot be read: nothing is written, and the rule is as it was
          rw [hrefused]
          exact mirroredTurn_of_keeps ha (hw.copies rt hrt) ⟨⟨rfl, rfl, rfl⟩, rfl, rfl, rfl, rfl⟩
            (.inl hfrom)
        | false =>
          have hpersist : persistAck env t user ⟨rt.setState t.toState, w.services⟩ = persist env t
              (some (textOr (env.login user) (toString user)))
                ⟨rt.setState t.toState, w.services⟩ := by
            simp [persistAck, hlogin]
          rw [hpersist]
          exact acked_mirrored henv hw hrt hedge hkind hfrom _
            (hack hlogin rt hfind (by rw [hsome]; rfl)) heventId
      have hcopied := hw.turn hrt hprogress hturn
      -- the rule is built again in `acknowledge`, with the state alone changed
      have hscope : ({ rt with machine := { rt.machine with state := t.toState } } : RuleRuntime)
          = rt.setState t.toState := rfl
      dsimp only
      rw [hscope]
      cases hp : persistAck env t user ⟨rt.setState t.toState, w.services⟩ with
      | ok a x =>
        rw [hp] at hcopied hturn
        exact ⟨hcopied, hturn.1⟩
      | error f x =>
        rw [hp] at hcopied hturn
        exact ⟨hcopied, hturn.1⟩

/-! ## Loads -/

theorem RuleRuntime.CopyOf.refresh {rt : RuleRuntime} {e : AlarmEvent} (h : rt.CopyOf e)
    (records : List RuleRecord) : (refresh records rt).CopyOf e := by
  unfold Superviseur.refresh
  split
  · exact h
  · exact ⟨h.raisedAt, h.ackedAt, h.ackedBy, h.raisedValue, h.clearedAt⟩

theorem Copied.refreshed (hw : Copied w) (env : Env) : Copied ⟨refreshed env w, w.services⟩ := by
  refine ⟨hw.consistent.refreshed env, fun rt hrt e he ↦ ?_⟩
  obtain ⟨rt₀, hmem, rfl⟩ := List.mem_map.mp hrt
  rw [record_id_refresh] at he
  exact (hw.copies rt₀ hmem e he).refresh _

theorem Copied.installed (hw : Copied w) (env : Env) : Copied ⟨installed env w, w.services⟩ := by
  refine ⟨hw.consistent.reloaded env, fun rt hrt e he ↦ ?_⟩
  obtain ⟨record, -, rfl⟩ := List.mem_map.mp hrt
  rw [record_id_runtimeOf] at he
  obtain ⟨hmem, hrule, hopen⟩ := Services.mem_openOf.mp he
  have hevent : e ∈ w.services.openEvents := Services.mem_openEvents.mpr ⟨hmem, hopen⟩
  unfold runtimeOf
  split
  · rename_i rt hknown
    obtain ⟨rt₀, hrt₀, rfl⟩ := List.mem_map.mp (List.mem_of_find?_eq_some hknown)
    have hid : (refresh env.rules.val rt₀).record.id = record.id := by
      simpa using List.find?_some hknown
    rw [record_id_refresh] at hid
    exact (hw.copies rt₀ hrt₀ e (by rw [hid]; exact he)).refresh _
  · cases hfind : w.services.openEvents.find? fun e ↦ e.ruleId = record.id with
    | none => exact absurd (decide_eq_true hrule) (List.find?_eq_none.mp hfind e hevent)
    | some e' =>
      -- the open alarm of a rule is the only one
      have hrule' : e'.ruleId = record.id := by simpa using List.find?_some hfind
      have hone := hw.consistent.sound.openOf_eq (List.mem_of_find?_eq_some hfind)
      rw [hrule'] at hone
      rw [hone, List.mem_singleton] at he
      rw [he]
      exact ⟨rfl, rfl, rfl, rfl, fun _ ↦ rfl⟩

/-- **A load that closes no orphan** keeps the invariant, and its messages mirror the rows. -/
theorem load_mirrored (henv : env.Delivers) (hw : Copied w) (hload : Discloses env w .load) :
    Copied (load env w).1 ∧ Mirrored w.services (load env w).1.services := by
  by_cases hread : env.fails .loadRules = false ∧ env.fails .openEvents = false
  · obtain ⟨hrules, hevents⟩ := hread
    obtain ⟨horphans, hfresh⟩ := hload (by simp [hrules, hevents])
    cases hlist : orphansOf env w with
    | nil =>
      have hclosing : closing env w = (w.services, none) := by
        rw [closing, hlist]
        rfl
      rw [load_of_closing hrules hevents (congrArg Prod.snd hclosing), hclosing]
      have hinstalled := hw.installed env
      rw [initialEvaluation]
      split
      · exact ⟨hinstalled, .refl _⟩
      · cases hlatest : env.fails .latestValues with
        | true => exact ⟨hinstalled, .refl _⟩
        | false =>
          cases honline : env.fails .devicesOnline with
          | true => exact ⟨hinstalled, .refl _⟩
          | false =>
            simp only [Bool.false_eq_true, if_false]
            refine hinstalled.forEach (updates_evaluateInitial env) henv (nodup_freshRules env w) ?_
            intro rule hrule rt hfind s hs ha hcopy
            obtain ⟨instant, hturn⟩ := evaluateInitial_eq env rt s
            exact turn_mirrored henv hs ha hcopy
              (hfresh hlist (by simp [hlatest, honline]) rule hrule rt hfind) hturn
    | cons e orphans =>
      -- the first orphan cannot be updated: nothing is closed, and the load stops there
      have hfails : env.fails (.updateEvent e.ruleId) = true := horphans e (by rw [hlist]; rfl)
      have hloads := loads_load env w
      have hclosing : closing env w
          = (w.services, some (.unavailable (.updateEvent e.ruleId))) := by
        rw [closing, hlist, closeOrphans, closeOrphan, if_pos hfails]
      generalize (load env w).1 = w' at hloads ⊢
      generalize (load env w).2 = failure at hloads
      cases hloads with
      | unread => exact ⟨hw, .refl _⟩
      | unclosed =>
        rw [hclosing]
        exact ⟨hw.refreshed env, .refl _⟩
      | unevaluated _ _ hclose =>
        rw [hclosing] at hclose
        cases hclose
      | done _ _ hclose =>
        rw [hclosing] at hclose
        cases hclose
  · have hunread : (load env w).1 = w := by
      rw [load]
      cases hrules : env.fails .loadRules with
      | true => rfl
      | false =>
        cases hevents : env.fails .openEvents with
        | true => rfl
        | false => exact absurd ⟨hrules, hevents⟩ hread
    rw [hunread]
    exact ⟨hw, .refl _⟩

/-! ## Steps and runs -/

/-- **The messages of a step mirror the rows it writes.** -/
theorem step_mirrored (hw : Copied w) (hindex : Indexed w.engine) {op : Op}
    (h : Faithful env op w) :
    Copied (step env w op) ∧ Mirrored w.services (step env w op).services := by
  obtain ⟨henv, hdiscloses⟩ := h
  by_cases hop : op.isObservation = true
  · have htargets : ∀ rule ∈ w.targets op, ∀ rt, w.engine.find? rule = some rt →
        rt.Unvalued env (rt.conditionAt env op) op.value := by
      cases op <;> first | exact hdiscloses | cases hop
    rw [step_eq_forEach hop]
    refine hw.forEach (updates_turn hop env) henv (nodup_targets hw.consistent hindex op) ?_
    intro rule hrule rt hfind s hs ha hcopy
    obtain ⟨instant, hturn⟩ := turn_eq_update hop env rt s
    exact turn_mirrored henv hs ha hcopy (htargets rule hrule rt hfind) hturn
  · cases op with
    | load => exact load_mirrored henv hw hdiscloses
    | acknowledge eventId user => exact acknowledge_mirrored henv hw eventId user hdiscloses
    | restart =>
      refine ⟨⟨⟨List.nodup_nil, hw.consistent.sound, ?_⟩, ?_⟩, .refl _⟩
      · exact fun rt hrt ↦ absurd hrt List.not_mem_nil
      · exact fun rt hrt ↦ absurd hrt List.not_mem_nil
    | onValue | onDeviceStatus | onBacnetEvent | tick => exact absurd rfl hop

end Step

/-- **Every message mirrors its row**: in a run whose steps all disclose, the messages published
are, in order, those of the writes made, and each says of its alarm what the row says right after
the write. -/
theorem messages_mirror_rows {events : List AlarmEvent} (hs : (Services.ofEvents events).Sound)
    {is : List (Env × Op)} {w : AlarmSystem} (h : Run Faithful (.ofEvents events) is w) :
    List.Forall₂ Mirrors w.services.published (rowsWritten events w.services.history) := by
  have hmirrored : Mirrored (.ofEvents events) w.services := by
    have hstart : Copied ⟨.empty, .ofEvents events⟩ ∧ Indexed AlarmEngine.empty :=
      ⟨⟨consistent_empty hs, fun _ hrt ↦ absurd hrt List.not_mem_nil⟩,
        List.nodup_nil, List.nodup_nil, List.nodup_nil⟩
    refine h.relate (fun w ↦ Copied w ∧ Indexed w.engine)
      (fun w w' ↦ Mirrored w.services w'.services) (fun w ↦ .refl w.services)
      (fun h h' ↦ h.trans h') ?_ hstart
    rintro w i w' ⟨hw, hindex⟩ ⟨hfaithful, rfl⟩
    obtain ⟨hcopied, hstep⟩ := step_mirrored hw hindex hfaithful
    exact ⟨⟨hcopied, indexed_step hindex i.2⟩, hstep⟩
  obtain ⟨writes, ms, hhistory, hpublished, -, hforall⟩ := hmirrored
  have hhistory' : w.services.history = writes := hhistory
  have hpublished' : w.services.published = ms := hpublished
  rw [hhistory', hpublished']
  exact hforall

/-- An alarm raised at the second attempt, which ends and is then acknowledged. -/
def endedAlarm : List (Env × Op) :=
  [(failing [], .load), (failing [.createEvent 1], .onDeviceStatus 7 false),
    (failing [], .onDeviceStatus 7 false), (failing [], .onDeviceStatus 7 true),
    (failing [], .acknowledge 1 3)]

/-- An alarm whose end the store refuses, and which is then acknowledged. -/
def refusedEnd : List (Env × Op) :=
  [(failing [], .load), (failing [], .onDeviceStatus 7 false),
    (failing [.updateEvent 1], .onDeviceStatus 7 true), (failing [], .acknowledge 1 3)]

theorem messages_mirror_rows_ended :
    (systemAfter ⟨.empty, .ofEvents []⟩ endedAlarm).services.published.map
        AlarmMessage.transition = [.raised, .cleared, .acked] ∧
      List.Forall₂ Mirrors (systemAfter ⟨.empty, .ofEvents []⟩ endedAlarm).services.published
        (rowsWritten [] (systemAfter ⟨.empty, .ofEvents []⟩ endedAlarm).services.history) := by
  refine ⟨by decide +kernel, @messages_mirror_rows [] Services.sound_empty endedAlarm _ ?_⟩
  have hdelivers : (failing []).Delivers := failing_delivers (by decide)
  exact .cons ⟨⟨hdelivers, by decide⟩, rfl⟩
    (.cons ⟨⟨failing_delivers (by decide), by decide⟩, rfl⟩
      (.cons ⟨⟨hdelivers, by decide +kernel⟩, rfl⟩
        (.cons ⟨⟨hdelivers, by decide +kernel⟩, rfl⟩
          (.single ⟨⟨hdelivers, by decide +kernel⟩, rfl⟩))))

/-- The date of the end that a message gives. -/
def AlarmMessage.clearedAt (m : AlarmMessage) : Option Instant :=
  match m.event with
  | .full info => info.clearedAt
  | .orphan _ _ => none

theorem clearedAt_of_mirrors {ms : List AlarmMessage} {rows : List (Option AlarmEvent)}
    (h : List.Forall₂ Mirrors ms rows) :
    ms.map AlarmMessage.clearedAt = rows.map fun row ↦ row.bind AlarmEvent.clearedAt := by
  induction h with
  | nil => rfl
  | @cons m row ms rows hm _ ih =>
    obtain ⟨info, e, hevent, rfl, -, hfields⟩ := hm
    have hcleared : info.clearedAt = e.clearedAt :=
      congrArg RowFields.clearedAt (hfields lostRule)
    rw [List.map_cons, List.map_cons, ih, AlarmMessage.clearedAt, hevent]
    exact congrArg (· :: _) hcleared

/-- The acknowledgement of an alarm whose end was refused carries a date of end, and its row has
none. -/
theorem message_not_mirrored : ¬ ∀ (events : List AlarmEvent) (is : List (Env × Op))
    (w : AlarmSystem), (Services.ofEvents events).Sound → Run BusDelivers (.ofEvents events) is w →
      List.Forall₂ Mirrors w.services.published (rowsWritten events w.services.history) := by
  intro h
  have hrun : Run BusDelivers (.ofEvents []) refusedEnd
      (systemAfter ⟨.empty, .ofEvents []⟩ refusedEnd) :=
    .cons ⟨failing_delivers (by decide), rfl⟩ (.cons ⟨failing_delivers (by decide), rfl⟩
      (.cons ⟨failing_delivers (by decide), rfl⟩ (.single ⟨failing_delivers (by decide), rfl⟩)))
  have hcleared := clearedAt_of_mirrors (h [] _ _ Services.sound_empty hrun)
  exact absurd hcleared (by decide +kernel)

end Superviseur
