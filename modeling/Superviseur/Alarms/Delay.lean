import Superviseur.Alarms.RuleShare
import Superviseur.Alarms.Standing

/-!
# The delay of a rule

Every observation and every tick that evaluates a rule is a finding: a condition and an instant.
The machine raises the alarm at the first finding that comes at least one delay after the condition
became true, if it was true at every finding in between (`AlarmMachine.raised_iff`). Nothing is said
of the clock: the wait is measured between two of its readings, whatever these are.

The engine gives the machine of a rule its findings one by one (`fed_run`), and tells nothing of a
wait that does not come to its end.
-/

namespace Superviseur

/-- What an operation finds for a rule, and when: no condition where it does not evaluate it. -/
structure Finding where
  condition : Option Bool
  now : Instant

namespace AlarmMachine

/-- The machine after a finding. -/
def feed (m : AlarmMachine) (f : Finding) : AlarmMachine :=
  match f.condition with
  | none => m
  | some condition => (m.update condition f.now).1

def feedAll (m : AlarmMachine) (fs : List Finding) : AlarmMachine := fs.foldl feed m

/-- The wait that begins with the finding `j` ends with the finding `k`. -/
structure Waited (m : AlarmMachine) (fs : List Finding) (j k : ℕ) (first last : Finding) :
    Prop where
  le : j ≤ k
  at_first : fs[j]? = some first
  at_last : fs[k]? = some last
  /-- The condition becomes true with the machine in `normal`. -/
  normal : (m.feedAll (fs.take j)).state = .normal
  became : first.condition = some true
  /-- It is true at every finding since. -/
  held : ∀ i f, j ≤ i → i ≤ k → fs[i]? = some f → f.condition ≠ some false
  /-- The delay has elapsed, -/
  evaluated : last.condition = some true
  elapsed : m.delayS ≤ last.now - first.now
  /-- and had not before. -/
  soonest : ∀ i f, j ≤ i → i < k → fs[i]? = some f → f.condition = some true →
    f.now - first.now < m.delayS

/-- An excursion that ends before the delay: the condition becomes true with the finding `j`, stays
true until the finding `k`, which is false, and the delay has not elapsed at any finding in
between. -/
structure Excursion (m : AlarmMachine) (fs : List Finding) (j k : ℕ) (first last : Finding) :
    Prop where
  lt : j < k
  at_first : fs[j]? = some first
  at_last : fs[k]? = some last
  normal : (m.feedAll (fs.take j)).state = .normal
  became : first.condition = some true
  held : ∀ i f, j ≤ i → i < k → fs[i]? = some f → f.condition ≠ some false
  before : ∀ i f, j ≤ i → i < k → fs[i]? = some f → f.condition = some true →
    f.now - first.now < m.delayS
  ended : last.condition = some false

/-- The machine waits since the finding `j`, and has been given the `k` first findings. -/
structure Waiting (m : AlarmMachine) (fs : List Finding) (j k : ℕ) (first : Finding) : Prop where
  lt : j < k
  at_first : fs[j]? = some first
  normal : (m.feedAll (fs.take j)).state = .normal
  became : first.condition = some true
  held : ∀ i f, j ≤ i → i < k → fs[i]? = some f → f.condition ≠ some false
  before : ∀ i f, j ≤ i → i < k → fs[i]? = some f → f.condition = some true →
    f.now - first.now < m.delayS
  pending : (m.feedAll (fs.take k)).state = .pending
  since : (m.feedAll (fs.take k)).pendingSince = some first.now

section Feed

variable {m : AlarmMachine} {fs : List Finding} {f first last : Finding} {j k : ℕ}

theorem feed_none (h : f.condition = none) : m.feed f = m := by
  rw [feed, h]

theorem feed_some {condition : Bool} (h : f.condition = some condition) :
    m.feed f = (m.update condition f.now).1 := by
  rw [feed, h]

theorem feedAll_take_succ (m : AlarmMachine) (hf : fs[k]? = some f) :
    m.feedAll (fs.take (k + 1)) = (m.feedAll (fs.take k)).feed f := by
  rw [feedAll, List.take_add_one, hf, List.foldl_append]
  rfl

@[simp] theorem delayS_feed (m : AlarmMachine) (f : Finding) : (m.feed f).delayS = m.delayS := by
  cases hf : f.condition with
  | none => rw [feed_none hf]
  | some condition => rw [feed_some hf, delayS_update]

@[simp] theorem delayS_feedAll (m : AlarmMachine) (fs : List Finding) :
    (m.feedAll fs).delayS = m.delayS := by
  induction fs generalizing m with
  | nil => rfl
  | cons f fs ih =>
    have hrest := ih (m.feed f)
    rw [delayS_feed] at hrest
    exact hrest

theorem update_false (h : m.state = .normal ∨ m.state = .pending) (now : Instant) :
    (m.update false now).1.state = .normal := by
  obtain ⟨delay, state, since⟩ := m
  rcases h with rfl | rfl <;> rfl

theorem due_of_normal (h : m.state = .normal) (now : Instant) : m.Due now ↔ m.delayS ≤ 0 := by
  rw [Due, waiting_of_normal h, AlarmMachine.elapsed, Option.getD_some, sub_self]

theorem due_of_pending {since : Instant} (h : m.state = .pending)
    (hsince : m.pendingSince = some since) (now : Instant) :
    m.Due now ↔ m.delayS ≤ now - since := by
  rw [Due, waiting_of_pending h, AlarmMachine.elapsed, hsince, Option.getD_some]

theorem of_pending_update {now : Instant} (h : (m.update true now).1.state = .pending) :
    (m.state = .normal ∨ m.state = .pending) ∧ ¬ m.Due now := by
  have hstate : m.state = .normal ∨ m.state = .pending := by
    obtain ⟨delay, state, since⟩ := m
    cases state
    case normal => exact .inl rfl
    case pending => exact .inr rfl
    all_goals cases h
  refine ⟨hstate, fun hdue ↦ ?_⟩
  rw [(update_of_due hstate hdue).1] at h
  cases h

theorem forall_lt_succ {P : ℕ → Finding → Prop} (hf : fs[k]? = some f)
    (h : ∀ i g, j ≤ i → i < k → fs[i]? = some g → P i g) (hk : P k f) :
    ∀ i g, j ≤ i → i < k + 1 → fs[i]? = some g → P i g := by
  intro i g hji hik hg
  rcases Nat.lt_succ_iff_lt_or_eq.mp hik with hlt | rfl
  · exact h i g hji hlt hg
  · obtain rfl := Option.some.inj (hf.symm.trans hg)
    exact hk

/-- The condition becomes true: a wait begins, if the delay is not over at once. -/
theorem Waiting.start (hf : fs[k]? = some f) (hnormal : (m.feedAll (fs.take k)).state = .normal)
    (htrue : f.condition = some true) (hdue : ¬ (m.feedAll (fs.take k)).Due f.now) :
    Waiting m fs k (k + 1) f := by
  have hnext : m.feedAll (fs.take (k + 1)) = (m.feedAll (fs.take k)).waiting f.now := by
    rw [feedAll_take_succ m hf, feed_some htrue, (update_of_not_due (.inl hnormal) hdue).1]
  rw [due_of_normal hnormal, delayS_feedAll] at hdue
  refine ⟨k.lt_succ_self, hf, hnormal, htrue, ?_, ?_, ?_, ?_⟩
  · refine forall_lt_succ hf (fun i g hji hik ↦ absurd hik (by omega)) ?_
    rw [htrue]
    decide
  · refine forall_lt_succ hf (fun i g hji hik ↦ absurd hik (by omega)) fun _ ↦ ?_
    rw [sub_self]
    exact not_le.mp hdue
  · rw [hnext, waiting_of_normal hnormal]
  · rw [hnext, waiting_of_normal hnormal]

theorem Waiting.next (h : Waiting m fs j k first) (hf : fs[k]? = some f)
    (hfinding : f.condition = none ∨
      f.condition = some true ∧ ¬ (m.feedAll (fs.take k)).Due f.now) :
    Waiting m fs j (k + 1) first := by
  have hsame : m.feedAll (fs.take (k + 1)) = m.feedAll (fs.take k) := by
    rw [feedAll_take_succ m hf]
    rcases hfinding with hnone | ⟨htrue, hdue⟩
    · rw [feed_none hnone]
    · rw [feed_some htrue, (update_of_not_due (.inr h.pending) hdue).1,
        waiting_of_pending h.pending]
  refine ⟨h.lt.trans k.lt_succ_self, h.at_first, h.normal, h.became,
    forall_lt_succ hf h.held ?_, forall_lt_succ hf h.before ?_, hsame ▸ h.pending,
    hsame ▸ h.since⟩
  · rcases hfinding with hnone | ⟨htrue, -⟩
    · rw [hnone]
      decide
    · rw [htrue]
      decide
  · intro htrue
    rcases hfinding with hnone | ⟨-, hdue⟩
    · rw [hnone] at htrue
      cases htrue
    · rw [due_of_pending h.pending h.since, delayS_feedAll, not_le] at hdue
      exact hdue

/-- **A pending machine waits** since the condition became true. -/
theorem waiting_of_feedAll (hm : m.state = .normal) (hk : k ≤ fs.length)
    (hpending : (m.feedAll (fs.take k)).state = .pending) :
    ∃ j first, Waiting m fs j k first := by
  induction k with
  | zero =>
    have hstart : m.feedAll (fs.take 0) = m := rfl
    rw [hstart, hm] at hpending
    cases hpending
  | succ k ih =>
    obtain ⟨f, hf⟩ : ∃ f, fs[k]? = some f := ⟨_, List.getElem?_eq_getElem (by omega)⟩
    rw [feedAll_take_succ m hf] at hpending
    -- what the last finding was
    cases hcondition : f.condition with
    | none =>
      rw [feed_none hcondition] at hpending
      obtain ⟨j, first, h⟩ := ih (by omega) hpending
      exact ⟨j, first, h.next hf (.inl hcondition)⟩
    | some condition =>
      rw [feed_some hcondition] at hpending
      cases condition with
      | false =>
        have hholds := holds_update (m.feedAll (fs.take k)) false f.now
        rw [hpending] at hholds
        cases hholds
      | true =>
        obtain ⟨hstate | hstate, hdue⟩ := of_pending_update hpending
        · exact ⟨k, f, .start hf hstate hcondition hdue⟩
        · obtain ⟨j, first, h⟩ := ih (by omega) hstate
          exact ⟨j, first, h.next hf (.inr ⟨hcondition, hdue⟩)⟩

/-- From a finding where the condition becomes true, the machine waits as long as the condition is
not found false and the delay has not elapsed. -/
theorem Waiting.of_held {i : ℕ} (hfirst : fs[j]? = some first)
    (hnormal : (m.feedAll (fs.take j)).state = .normal) (hbecame : first.condition = some true)
    (hheld : ∀ l f, j ≤ l → l < i → fs[l]? = some f → f.condition ≠ some false)
    (hbefore : ∀ l f, j ≤ l → l < i → fs[l]? = some f → f.condition = some true →
      f.now - first.now < m.delayS) (hji : j < i) (hi : i ≤ fs.length) :
    Waiting m fs j i first := by
  induction i, hji using Nat.le_induction with
  | base =>
    refine .start hfirst hnormal hbecame ?_
    have hsoonest := hbefore j first le_rfl j.lt_succ_self hfirst hbecame
    rw [sub_self] at hsoonest
    rw [due_of_normal hnormal, delayS_feedAll, not_le]
    exact hsoonest
  | succ i hji ih =>
    have hwaiting := ih (fun l f hjl hli ↦ hheld l f hjl (by omega))
      (fun l f hjl hli ↦ hbefore l f hjl (by omega)) (by omega)
    obtain ⟨f, hf⟩ : ∃ f, fs[i]? = some f := ⟨_, List.getElem?_eq_getElem (by omega)⟩
    refine hwaiting.next hf ?_
    cases hcondition : f.condition with
    | none => exact .inl rfl
    | some condition =>
      cases condition with
      | false => exact absurd hcondition (hheld i f (by omega) i.lt_succ_self hf)
      | true =>
        refine .inr ⟨rfl, ?_⟩
        rw [due_of_pending hwaiting.pending hwaiting.since, delayS_feedAll, not_le]
        exact hbefore i f (by omega) i.lt_succ_self hf hcondition

/-- A wait that comes to its end is under way at each finding in between. -/
theorem Waited.waiting (h : Waited m fs j k first last) (hjk : j < k) :
    Waiting m fs j k first :=
  .of_held h.at_first h.normal h.became (fun i f hji hik ↦ h.held i f hji hik.le) h.soonest hjk
    (List.getElem?_eq_some_iff.mp h.at_last).1.le

theorem Excursion.waiting (h : Excursion m fs j k first last) {i : ℕ} (hji : j < i) (hik : i ≤ k) :
    Waiting m fs j i first :=
  .of_held h.at_first h.normal h.became (fun l f hjl hli ↦ h.held l f hjl (by omega))
    (fun l f hjl hli ↦ h.before l f hjl (by omega)) hji
    (hik.trans (List.getElem?_eq_some_iff.mp h.at_last).1.le)

theorem Excursion.idle (h : Excursion m fs j k first last) {i : ℕ} (hji : j ≤ i)
    (hik : i ≤ k + 1) : (m.feedAll (fs.take i)).state.isOpen = false := by
  rcases hji.lt_or_eq with hji | rfl
  · rcases Nat.lt_succ_iff_lt_or_eq.mp (Nat.lt_succ_of_le hik) with hik | rfl
    · rw [(h.waiting hji (by omega)).pending]
      rfl
    · -- the finding that ends the excursion
      have hpending := (h.waiting h.lt le_rfl).pending
      rw [feedAll_take_succ m h.at_last, feed_some h.ended, update_false (.inr hpending)]
      rfl
  · rw [h.normal]
    rfl

/-- A finding raises the alarm of a machine in `normal` or `pending` where it is due. -/
theorem raised_feed_iff (h : m.state = .normal ∨ m.state = .pending) :
    (m.feed f).state = .activeUnacked ↔ f.condition = some true ∧ m.Due f.now := by
  cases hcondition : f.condition with
  | none =>
    rw [feed_none hcondition]
    rcases h with h | h <;> simp [h]
  | some condition =>
    rw [feed_some hcondition]
    cases condition with
    | false => simp [update_false h]
    | true =>
      by_cases hdue : m.Due f.now
      · simp [(update_of_due h hdue).1, hdue]
      · simp [(update_of_not_due h hdue).1, state_waiting h, hdue]

/-- **The alarm is raised at the end of a wait**, and there only. -/
theorem raised_iff (hm : m.state = .normal) (hf : fs[k]? = some f) :
    ((m.feedAll (fs.take k)).state = .normal ∨ (m.feedAll (fs.take k)).state = .pending) ∧
        (m.feedAll (fs.take (k + 1))).state = .activeUnacked ↔
      ∃ j first, Waited m fs j k first f := by
  rw [feedAll_take_succ m hf]
  constructor
  · rintro ⟨hstate, hraised⟩
    obtain ⟨htrue, hdue⟩ := (raised_feed_iff hstate).mp hraised
    rcases hstate with hstate | hstate
    · -- the delay is over at once
      rw [due_of_normal hstate, delayS_feedAll] at hdue
      refine ⟨k, f, le_rfl, hf, hf, hstate, htrue, ?_, htrue, by rwa [sub_self], ?_⟩
      · intro i g hki hik hg
        obtain rfl : i = k := by omega
        obtain rfl := Option.some.inj (hf.symm.trans hg)
        rw [htrue]
        decide
      · exact fun i g hki hik ↦ absurd hik (by omega)
    · obtain ⟨j, first, h⟩ :=
        waiting_of_feedAll hm (List.getElem?_eq_some_iff.mp hf).1.le hstate
      rw [due_of_pending hstate h.since, delayS_feedAll] at hdue
      refine ⟨j, first, h.lt.le, h.at_first, hf, h.normal, h.became, ?_, htrue, hdue, h.before⟩
      intro i g hji hik hg
      refine forall_lt_succ hf h.held ?_ i g hji (by omega) hg
      rw [htrue]
      decide
  · rintro ⟨j, first, h⟩
    have hstate : (m.feedAll (fs.take k)).state = .normal ∨
        (m.feedAll (fs.take k)).state = .pending := by
      rcases h.le.lt_or_eq with hlt | rfl
      · exact .inr (h.waiting hlt).pending
      · exact .inl h.normal
    refine ⟨hstate, (raised_feed_iff hstate).mpr ⟨h.evaluated, ?_⟩⟩
    rcases h.le.lt_or_eq with hlt | rfl
    · have hwaiting := h.waiting hlt
      rw [due_of_pending hwaiting.pending hwaiting.since, delayS_feedAll]
      exact h.elapsed
    · obtain rfl := Option.some.inj (h.at_first.symm.trans hf)
      have helapsed := h.elapsed
      rw [sub_self] at helapsed
      rwa [due_of_normal h.normal, delayS_feedAll]

end Feed

end AlarmMachine

/-! ## The rule in the engine -/

/-- An observation or a tick, with a store and a bus that answer. -/
def Reliable (i : Env × Op) : Prop := i.2.isObservation = true ∧ ∀ call, i.1.fails call = false

/-- What an operation finds for the rule. -/
def found (rule : RuleId) (w : AlarmSystem) (i : Env × Op) : Finding where
  condition := evaluated i.1 w i.2 rule
  now := i.1.clock (.update rule)

/-- What each operation of a list finds for it. -/
def findings (rule : RuleId) : AlarmSystem → List (Env × Op) → List Finding
  | _, [] => []
  | w, i :: is => found rule w i :: findings rule (step i.1 w i.2) is

/-- A pending rule remembers that its condition is true. -/
def RuleRuntime.Remembers (rt : RuleRuntime) : Prop :=
  rt.machine.state = .pending → rt.condition = true

/-- An operation that finds `f` takes the rule from `rt` and its share `sh` to `rt'` and `sh'`. -/
structure Fed (f : Finding) (rt : RuleRuntime) (sh : Share) (rt' : RuleRuntime) (sh' : Share) :
    Prop where
  machine : rt'.machine = rt.machine.feed f
  remembers : rt.Remembers → rt'.Remembers
  /-- Nothing is told, or one transition. -/
  told : (sh' = sh ∧ (rt'.machine.state = rt.machine.state ∨
      rt.machine.state.isOpen = false ∧ rt'.machine.state.isOpen = false)) ∨
    ∃ t id, t.IsEdge ∧ rt'.machine.state = t.toState ∧ Reported t rt id sh sh' ∧
      (t.fromState = rt.machine.state ∨ rt.machine.state = .normal ∧ t.fromState = .pending) ∧
      (∀ id', rt.eventId = some id' → id = id') ∧ (t.toState ≠ .normal → rt'.eventId = some id)

section Engine

variable {rule : RuleId} {w : AlarmSystem} {rt : RuleRuntime} {i : Env × Op}
  {is : List (Env × Op)} {k : ℕ}

theorem findings_take (rule : RuleId) (w : AlarmSystem) (is : List (Env × Op)) (k : ℕ) :
    (findings rule w is).take k = findings rule w (is.take k) := by
  induction is generalizing w k with
  | nil => rw [List.take_nil, findings, List.take_nil]
  | cons i is ih =>
    cases k with
    | zero => rfl
    | succ k => rw [findings, List.take_succ_cons, List.take_succ_cons, ih, findings]

theorem findings_getElem? (rule : RuleId) (w : AlarmSystem) (is : List (Env × Op)) (k : ℕ) :
    (findings rule w is)[k]? = is[k]?.map (found rule (systemAfter w (is.take k))) := by
  induction is generalizing w k with
  | nil => rfl
  | cons i is ih =>
    cases k with
    | zero => rfl
    | succ k => exact ih (step i.1 w i.2) k

theorem systemAfter_take_succ (w : AlarmSystem) (hi : is[k]? = some i) :
    systemAfter w (is.take (k + 1)) = step i.1 (systemAfter w (is.take k)) i.2 := by
  rw [systemAfter, List.take_add_one, hi, List.foldl_append]
  rfl

theorem Reliable.orderly (hi : Reliable i) (w : AlarmSystem) : Orderly i.1 i.2 w := by
  refine ⟨fun call _ ↦ hi.2 call, fun hload ↦ ?_⟩
  have hobservation := hi.1
  rw [hload] at hobservation
  cases hobservation

theorem Written.eq_of_eventId {s s' : Services} {id id' : EventId} {state : AlarmState}
    (h : Written rt s id state s') (hid' : rt.eventId = some id') : id = id' := by
  rcases h with ⟨hnone, -⟩ | ⟨hid, -⟩
  · rw [hnone] at hid'
    cases hid'
  · exact Option.some.inj (hid.symm.trans hid')

theorem fed_turn (hi : Reliable i) {s : Services} (ha : Agrees rt s) :
    Fed ⟨rt.conditionAt i.1 i.2, i.1.clock (.update rt.record.id)⟩ rt (s.share rt.record.id)
      (turn i.1 i.2 ⟨rt, s⟩).runtime ((turn i.1 i.2 ⟨rt, s⟩).services.share rt.record.id) := by
  have henv : i.1.Delivers := fun call _ ↦ hi.2 call
  have hprogress := (updates_turn hi.1 i.1).progress henv ha
  obtain ⟨instant, ⟨hnone, hturn⟩ | ⟨condition, value, hsome, hturn⟩⟩ := turn_eq hi.1 i.1 rt s
  · rw [hnone, hturn]
    exact ⟨(AlarmMachine.feed_none rfl).symm, id, .inl ⟨rfl, .inl rfl⟩⟩
  · have hsame : rt.Same (rt.validAt instant) := ⟨rfl, rfl, rfl⟩
    have hmachine := machine_update henv (ha.of_same hsame rfl) (hi.2 _) condition value
    have hstanding := (standing_update i.1 condition value ⟨rt.validAt instant, s⟩).1
    rw [← hturn] at hmachine hstanding
    rw [hsome]
    refine ⟨hmachine, fun _ hpending ↦ ?_, ?_⟩
    · -- the condition remembered is the one just found
      have hholds := rt.machine.holds_update condition (i.1.clock (.update rt.record.id))
      rw [hmachine] at hpending
      have hcondition := congrArg Standing.condition hstanding
      refine hcondition.trans ?_
      rw [← hholds]
      exact congrArg AlarmMachine.holds hpending
    · rcases hprogress with ⟨-, hservices, hstate⟩ | ⟨t, id, hedge, hfrom, hstate, hstored⟩
      · exact .inl ⟨congrArg (fun s ↦ Services.share s rt.record.id) hservices, hstate⟩
      · refine .inr ⟨t, id, hedge, hstate, hstored.told, hfrom, fun id' hid' ↦ ?_, fun hne ↦ ?_⟩
        · obtain ⟨s₁, info, hwritten, -⟩ := hstored.written
          exact hwritten.eq_of_eventId hid'
        · rw [hstored.eventId, if_neg hne]

/-- **One operation, seen from the rule**: its machine is given what is found. -/
theorem fed_step (hw : Consistent w) (hindex : Indexed w.engine)
    (hfind : w.engine.find? rule = some rt) (hi : Reliable i) :
    ∃ rt', (step i.1 w i.2).engine.find? rule = some rt' ∧
      Fed (found rule w i) rt (w.services.share rule) rt'
        ((step i.1 w i.2).services.share rule) := by
  have henv : i.1.Delivers := fun call _ ↦ hi.2 call
  have hbody := updates_turn hi.1 i.1
  have hstep := step_eq_forEach hi.1 i.1 w
  rw [hstep, found]
  by_cases htarget : rule ∈ w.targets i.2
  · obtain ⟨s, -, ha, hshare, hfind', hshare'⟩ :=
      (hadTurn_forEach hbody henv hw (nodup_targets hw hindex i.2) htarget hfind).turn
    obtain ⟨-, rfl⟩ := AlarmEngine.find?_eq_some hfind
    have hevaluated : evaluated i.1 w i.2 rt.record.id = rt.conditionAt i.1 i.2 := by
      rw [evaluated, if_pos htarget, hfind]
      rfl
    refine ⟨_, hfind', ?_⟩
    rw [hevaluated, hshare', ← hshare]
    exact fed_turn hi ha
  · obtain ⟨hfind', hshare⟩ := untouched_forEach hbody henv hw htarget
    refine ⟨rt, hfind'.trans hfind, ?_⟩
    rw [hshare, evaluated, if_neg htarget]
    exact ⟨(AlarmMachine.feed_none rfl).symm, id, .inl ⟨rfl, .inl rfl⟩⟩

/-- **A run of observations and ticks, seen from the rule**: its machine is given the findings. -/
theorem fed_run (is : List (Env × Op)) (hw : Consistent w) (hindex : Indexed w.engine)
    (hfind : w.engine.find? rule = some rt) (hremembers : rt.Remembers)
    (his : ∀ i ∈ is, Reliable i) :
    Consistent (systemAfter w is) ∧ Indexed (systemAfter w is).engine ∧
      ∃ rt', (systemAfter w is).engine.find? rule = some rt' ∧
        rt'.machine = rt.machine.feedAll (findings rule w is) ∧ rt'.Remembers := by
  induction is generalizing w rt with
  | nil => exact ⟨hw, hindex, rt, hfind, rfl, hremembers⟩
  | cons i is ih =>
    have hi := his i List.mem_cons_self
    obtain ⟨rt₁, hfind₁, hfed⟩ := fed_step hw hindex hfind hi
    obtain ⟨hw', hindex', rt', hfind', hmachine, hremembers'⟩ := ih (hw.step (hi.orderly w))
      (indexed_step hindex i.2) hfind₁ (hfed.remembers hremembers)
      fun j hj ↦ his j (List.mem_cons_of_mem i hj)
    refine ⟨hw', hindex', rt', hfind', hmachine.trans ?_, hremembers'⟩
    rw [hfed.machine]
    rfl

/-! ## The main result -/

/-- The state of the machine of a rule. -/
def AlarmEngine.stateOf (e : AlarmEngine) (rule : RuleId) : Option AlarmState :=
  (e.find? rule).map fun rt ↦ rt.machine.state

/-- Between two shares, one message has been published: the alarm `id` is raised. -/
def SaysRaised (id : EventId) (sh sh' : Share) : Prop :=
  ∃ m, sh'.messages = sh.messages ++ [m] ∧ m.transition = .raised ∧ m.eventId = id

section Fed

variable {f : Finding} {rt rt' : RuleRuntime} {sh sh' : Share}

theorem Fed.quiet (h : Fed f rt sh rt' sh') (hstate : rt.machine.state.isOpen = false)
    (hstate' : rt'.machine.state.isOpen = false) : sh' = sh := by
  rcases h.told with ⟨hsh, -⟩ | ⟨t, id, hedge, hto, -, hfrom, -⟩
  · exact hsh
  · have hfrom' : t.fromState.isOpen = false := by
      rcases hfrom with hfrom | ⟨-, hfrom⟩
      · rw [hfrom, hstate]
      · rw [hfrom]
        rfl
    obtain ⟨-, -, hraised⟩ := hedge.of_not_isOpen hfrom'
    rw [hto, hraised] at hstate'
    cases hstate'

theorem Fed.saysRaised_iff (h : Fed f rt sh rt' sh') (hstate : rt.machine.state.isOpen = false) :
    (∃ id, SaysRaised id sh sh') ↔ rt'.machine.state = .activeUnacked := by
  rcases h.told with ⟨rfl, hsame⟩ | ⟨t, id, hedge, hto, hreported, hfrom, -⟩
  · constructor
    · rintro ⟨id, m, hm, -⟩
      exact absurd hm (by simp)
    · intro hactive
      rcases hsame with hsame | ⟨-, hclosed⟩
      · rw [← hsame, hactive] at hstate
        cases hstate
      · rw [hactive] at hclosed
        cases hclosed
  · have hfrom' : t.fromState.isOpen = false := by
      rcases hfrom with hfrom | ⟨-, hfrom⟩
      · rw [hfrom, hstate]
      · rw [hfrom]
        rfl
    obtain ⟨-, hkind, hraised⟩ := hedge.of_not_isOpen hfrom'
    obtain ⟨m, hm, hmkind, hid⟩ := hreported.message
    exact ⟨fun _ ↦ hto.trans hraised, fun _ ↦ ⟨id, m, hm, hmkind.trans hkind, hid⟩⟩

/-- A condition that comes back before the acknowledgement raises the same alarm at once. -/
theorem Fed.reraised (h : Fed f rt sh rt' sh') {id : EventId} (hid : rt.eventId = some id)
    (hstate : rt.machine.state = .clearedUnacked) (htrue : f.condition = some true) :
    rt'.machine.state = .activeUnacked ∧ rt'.eventId = some id ∧ SaysRaised id sh sh' ∧
      sh'.rows.map AlarmEvent.id = sh.rows.map AlarmEvent.id := by
  have hactive : rt'.machine.state = .activeUnacked := by
    rw [h.machine, AlarmMachine.feed_some htrue]
    generalize rt.machine = m at hstate
    obtain ⟨delay, state, since⟩ := m
    subst hstate
    rfl
  rcases h.told with ⟨-, hsame | ⟨-, hclosed⟩⟩ |
    ⟨t, id', hedge, hto, hreported, hfrom, hsame, hopen⟩
  · rw [hactive, hstate] at hsame
    cases hsame
  · rw [hactive] at hclosed
    cases hclosed
  · obtain rfl := hsame id hid
    have hkind : t.kind = .raised := by
      rcases hfrom with hfrom | ⟨hnormal, -⟩
      · have hedge' := hedge
        rw [Transition.IsEdge, hfrom, ← hto, hstate, hactive] at hedge'
        generalize t.kind = kind at hedge'
        cases hedge'
        rfl
      · rw [hstate] at hnormal
        cases hnormal
    obtain ⟨m, hm, hmkind, hmid⟩ := hreported.message
    refine ⟨hactive, hopen (by rw [← hto, hactive]; decide), ⟨m, hm, hmkind.trans hkind, hmid⟩, ?_⟩
    rw [hreported.rows, if_neg (by rw [hid]; simp), List.append_nil]

end Fed

/-- What the delay of the rule is worth in the run `is` from `w`, where its machine is `m`. -/
structure DelayLaw (rule : RuleId) (m : AlarmMachine) (w : AlarmSystem) (is : List (Env × Op)) :
    Prop where
  /-- The machine of the rule is the one given its findings. -/
  machine : ∀ k ≤ is.length, ∃ rt, (systemAfter w (is.take k)).engine.find? rule = some rt ∧
    rt.machine = m.feedAll ((findings rule w is).take k)
  /-- From `normal` or `pending` the alarm is raised at the end of a wait, and there only. -/
  raised : ∀ k f, (findings rule w is)[k]? = some f →
    (((systemAfter w (is.take k)).engine.stateOf rule = some .normal ∨
        (systemAfter w (is.take k)).engine.stateOf rule = some .pending) ∧
      (∃ id, SaysRaised id ((systemAfter w (is.take k)).services.share rule)
        ((systemAfter w (is.take (k + 1))).services.share rule)) ↔
      ∃ j first, m.Waited (findings rule w is) j k first f)
  /-- An excursion that ends before the delay creates no alarm, publishes and notifies nothing. -/
  excursion : ∀ j k first last, m.Excursion (findings rule w is) j k first last →
    (systemAfter w (is.take (k + 1))).services.share rule
      = (systemAfter w (is.take j)).services.share rule
  /-- A condition that comes back before the acknowledgement raises the same alarm at once. -/
  reraised : ∀ k f, (findings rule w is)[k]? = some f → f.condition = some true →
    (systemAfter w (is.take k)).engine.stateOf rule = some .clearedUnacked →
    (systemAfter w (is.take (k + 1))).engine.stateOf rule = some .activeUnacked ∧
      ∃ id, SaysRaised id ((systemAfter w (is.take k)).services.share rule)
          ((systemAfter w (is.take (k + 1))).services.share rule) ∧
        ((systemAfter w (is.take k)).engine.find? rule).bind RuleRuntime.eventId = some id ∧
        ((systemAfter w (is.take (k + 1))).engine.find? rule).bind RuleRuntime.eventId = some id ∧
        ((systemAfter w (is.take (k + 1))).services.share rule).rows.map AlarmEvent.id
          = ((systemAfter w (is.take k)).services.share rule).rows.map AlarmEvent.id
  /-- A tick finds the condition of a pending rule true, unless it measures an age. -/
  remembered : ∀ k env rt, is[k]? = some (env, .tick) →
    (systemAfter w (is.take k)).engine.find? rule = some rt → rt.machine.state = .pending →
    rt.record.kind ≠ .stale → evaluated env (systemAfter w (is.take k)) .tick rule = some true

section Law

variable {rule : RuleId} {w : AlarmSystem} {rt : RuleRuntime} {i : Env × Op}
  {is : List (Env × Op)} {k : ℕ}

theorem fed_at (hw : Consistent w) (hindex : Indexed w.engine)
    (hfind : w.engine.find? rule = some rt) (hremembers : rt.Remembers)
    (his : ∀ i ∈ is, Reliable i) {f : Finding} (hf : (findings rule w is)[k]? = some f) :
    ∃ rt₁ rt₂, (systemAfter w (is.take k)).engine.find? rule = some rt₁ ∧
      (systemAfter w (is.take (k + 1))).engine.find? rule = some rt₂ ∧
      rt₁.machine = rt.machine.feedAll ((findings rule w is).take k) ∧
      rt₁.Remembers ∧ Agrees rt₁ (systemAfter w (is.take k)).services ∧
      Fed f rt₁ ((systemAfter w (is.take k)).services.share rule) rt₂
        ((systemAfter w (is.take (k + 1))).services.share rule) := by
  rw [findings_getElem?, Option.map_eq_some_iff] at hf
  obtain ⟨i, hi, rfl⟩ := hf
  obtain ⟨hw', hindex', rt₁, hfind₁, hmachine, hremembers'⟩ := fed_run (is.take k) hw hindex hfind
    hremembers fun j hj ↦ his j (List.mem_of_mem_take hj)
  obtain ⟨rt₂, hfind₂, hfed⟩ := fed_step hw' hindex' hfind₁
    (his i (List.mem_of_getElem? hi))
  rw [← systemAfter_take_succ w hi] at hfind₂ hfed
  refine ⟨rt₁, rt₂, hfind₁, hfind₂, ?_, hremembers', ?_, hfed⟩
  · rw [hmachine, findings_take]
  · exact hw'.agrees rt₁ (AlarmEngine.find?_eq_some hfind₁).1

theorem length_findings (rule : RuleId) (w : AlarmSystem) (is : List (Env × Op)) :
    (findings rule w is).length = is.length := by
  induction is generalizing w with
  | nil => rfl
  | cons i is ih => rw [findings, List.length_cons, ih, List.length_cons]

theorem stateOf_eq_some (hfind : w.engine.find? rule = some rt) {state : AlarmState} :
    w.engine.stateOf rule = some state ↔ rt.machine.state = state := by
  rw [AlarmEngine.stateOf, hfind, Option.map_some, Option.some.injEq]

theorem AlarmState.isOpen_eq_false {state : AlarmState} :
    state.isOpen = false ↔ state = .normal ∨ state = .pending := by
  cases state <;> decide

theorem share_of_idle (hw : Consistent w) (hindex : Indexed w.engine)
    (hfind : w.engine.find? rule = some rt) (hremembers : rt.Remembers)
    (his : ∀ i ∈ is, Reliable i) {j l : ℕ} (hjl : j ≤ l) (hl : l ≤ is.length)
    (hidle : ∀ i, j ≤ i → i ≤ l →
      (rt.machine.feedAll ((findings rule w is).take i)).state.isOpen = false) :
    (systemAfter w (is.take l)).services.share rule
      = (systemAfter w (is.take j)).services.share rule := by
  induction l, hjl using Nat.le_induction with
  | base => rfl
  | succ l hjl ih =>
    have hprevious := ih (by omega) fun i hji hil ↦ hidle i hji (by omega)
    obtain ⟨f, hf⟩ : ∃ f, (findings rule w is)[l]? = some f :=
      ⟨_, List.getElem?_eq_getElem (by rw [length_findings]; omega)⟩
    obtain ⟨rt₁, rt₂, -, -, hmachine, -, -, hfed⟩ := fed_at hw hindex hfind hremembers his hf
    refine (hfed.quiet ?_ ?_).trans hprevious
    · rw [hmachine]
      exact hidle l hjl (by omega)
    · rw [hfed.machine, hmachine, ← AlarmMachine.feedAll_take_succ rt.machine hf]
      exact hidle (l + 1) (by omega) le_rfl

/-- **The delay of a rule** in a run of observations and ticks from `normal`, with a store and a bus
that answer. -/
theorem delayLaw {s : Services} (hs : s.Sound) {past : List (Env × Op)}
    (hrun : Run Orderly s past w) (hfind : w.engine.find? rule = some rt)
    (hnormal : rt.machine.state = .normal) (his : ∀ i ∈ is, Reliable i) :
    DelayLaw rule rt.machine w is := by
  have hw := consistent_of_run hs hrun
  have hindex := indexed_of_run hrun
  have hremembers : rt.Remembers := by
    intro hpending
    rw [hnormal] at hpending
    cases hpending
  -- where a finding is, the rule is fed it
  have hat := fun {k : ℕ} {f : Finding} (hf : (findings rule w is)[k]? = some f) ↦
    fed_at hw hindex hfind hremembers his hf
  refine ⟨?_, ?_, ?_, ?_, ?_⟩
  · intro k hk
    obtain ⟨-, -, rt', hfind', hmachine, -⟩ := fed_run (is.take k) hw hindex hfind
      hremembers fun i hi ↦ his i (List.mem_of_mem_take hi)
    exact ⟨rt', hfind', by rw [hmachine, findings_take]⟩
  · intro k f hf
    obtain ⟨rt₁, rt₂, hfind₁, hfind₂, hmachine, -, -, hfed⟩ := hat hf
    rw [stateOf_eq_some hfind₁, stateOf_eq_some hfind₁, ← AlarmMachine.raised_iff hnormal hf,
      ← hmachine, AlarmMachine.feedAll_take_succ _ hf, ← hmachine, ← hfed.machine]
    refine and_congr_right fun hstate ↦ ?_
    exact hfed.saysRaised_iff (AlarmState.isOpen_eq_false.mpr hstate)
  · intro j k first last h
    -- from the last reset to the tick, the rule only waits
    have hk := (List.getElem?_eq_some_iff.mp h.at_last).1
    rw [length_findings] at hk
    exact share_of_idle hw hindex hfind hremembers his (h.lt.le.trans k.le_succ) hk
      fun i hji hik ↦ h.idle hji hik
  · intro k f hf htrue hcleared
    obtain ⟨rt₁, rt₂, hfind₁, hfind₂, -, -, ha, hfed⟩ := hat hf
    rw [stateOf_eq_some hfind₁] at hcleared
    -- a rule that is cleared and not acknowledged has an event
    obtain ⟨id, hid⟩ : ∃ id, rt₁.eventId = some id := by
      rcases ha with ⟨hclosed, -⟩ | ⟨e, -, hid, -⟩
      · rw [hcleared] at hclosed
        cases hclosed
      · exact ⟨e.id, hid⟩
    obtain ⟨hactive, hid', hsays, hrows⟩ := hfed.reraised hid hcleared htrue
    refine ⟨(stateOf_eq_some hfind₂).mpr hactive, id, hsays, ?_, ?_, hrows⟩
    · rw [hfind₁, Option.bind_some, hid]
    · rw [hfind₂, Option.bind_some, hid']
  · intro k env rt' hi hfind' hpending hkind
    have hf : (findings rule w is)[k]?
        = some (found rule (systemAfter w (is.take k)) (env, .tick)) := by
      rw [findings_getElem?, hi, Option.map_some]
    obtain ⟨rt₁, -, hfind₁, -, -, hremembers', -, -⟩ := hat hf
    obtain rfl := Option.some.inj (hfind'.symm.trans hfind₁)
    have htarget : rule ∈ (systemAfter w (is.take k)).targets .tick := by
      obtain ⟨hmem, hid⟩ := AlarmEngine.find?_eq_some hfind'
      exact List.mem_map.mpr ⟨rt', hmem, hid⟩
    rw [evaluated, if_pos htarget, hfind', Option.bind_some, RuleRuntime.conditionAt]
    -- a staleness rule reads the clock instead of its condition
    split
    · rename_i hstale _
      exact absurd hstale hkind
    · rw [if_pos hpending, hremembers' hpending]

end Law

end Engine

/-! ### A delay of ten seconds, again -/

/-- The device is offline from 0 to 6 and from 8 on, with a tick at 4, 17 and 18. -/
def twoExcursions : List (Env × Op) :=
  [(timed 0 [], .onDeviceStatus 7 false), (timed 4 [], .tick), (timed 6 [], .onDeviceStatus 7 true),
    (timed 8 [], .onDeviceStatus 7 false), (timed 17 [], .tick), (timed 18 [], .tick)]

/-- The second excursion lasts ten seconds: the alarm is raised by the last tick. -/
theorem delayLaw_twoExcursions :
    (findings 1 delayedStart twoExcursions).map Finding.condition
        = [some true, some true, some false, some true, some true, some true] ∧
      ((systemAfter delayedStart twoExcursions).services.share 1).messages.length = 1 ∧
      DelayLaw 1 ⟨10, .normal, none⟩ delayedStart twoExcursions := by
  have hfind : delayedStart.engine.find? 1
    = some (.new delayedRule ⟨10, .normal, none⟩ 0) := rfl
  have hreliable : ∀ now op, op.isObservation = true → Reliable (timed now [], op) :=
    fun now op hop ↦ ⟨hop, fun _ ↦ rfl⟩
  refine ⟨by decide +kernel, by decide +kernel,
    delayLaw Services.sound_empty run_delayedStart hfind rfl ?_⟩
  intro i hi
  simp only [twoExcursions, List.mem_cons, List.not_mem_nil, or_false] at hi
  rcases hi with rfl | rfl | rfl | rfl | rfl | rfl <;> exact hreliable _ _ rfl

end Superviseur
