import Superviseur.Api.AlarmRules
import Superviseur.Api.DocumentRoundTrip

/-!
# Stored rules are coherent

A request validates its fields over the rule it has read, and writes only the columns that have
changed. Most of what is validated is about one column; the threshold and the kind go together. Two
requests of which one writes the kind and the other the threshold may therefore leave a rule that
neither has validated.

This is the only way: where a request writes one of the two and the other is still as it was read,
a rule that is coherent stays so (`rule_coherent`). Otherwise it depends on what is stored
(`coherent_set_iff`).
-/

namespace Superviseur.AlarmRules

open ReadCommitted

variable {env : ChannelEnv} {s : RulesDb} {id : Uuid}

/-! ## Validation -/

@[simp] theorem required_eq_valid_iff {α : Type} {msg : String} {x : Option α} {a : α} :
    required msg x = .valid a ↔ x = some a := by
  cases x with
  | none => simp [required]
  | some b => simp [required]

theorem validate_eq_valid_iff {fields : RuleFields} {r : RuleIn} :
    validate env fields = .valid r ↔ fields = r.fields ∧ r.Coherent env := by
  simp only [validate, Validation.andThen_eq_valid_iff, Validation.seq_eq_valid_iff,
    Validation.map_eq_valid_iff, Validation.check_eq_valid_iff, Schema.within_eq_valid_iff,
    Schema.raising_eq_none_iff, required_eq_valid_iff, Validation.valid_inj]
  constructor
  · rintro ⟨_, ⟨_, enabled, ⟨_, notify, ⟨_, severity, ⟨_, delay, ⟨_, hysteresis, ⟨_, threshold,
      ⟨_, kind, ⟨name, ⟨hname, hname'⟩, rfl⟩, hkind, rfl⟩, hthreshold, rfl⟩, hhysteresis, rfl⟩,
      hdelay, rfl⟩, hseverity, rfl⟩, hnotify, rfl⟩, henabled, rfl⟩, hpair, rfl⟩
    obtain ⟨_, hhysteresis, hpositive, rfl⟩ := hhysteresis
    obtain ⟨_, hdelay, hbounds, rfl⟩ := hdelay
    obtain ⟨_, ⟨_, hnotify, hcount, rfl⟩, hchannels, rfl⟩ := hnotify
    refine ⟨?_, hname' ▸ hname, hpair, hpositive, hbounds, hcount, hchannels⟩
    rw [RuleIn.fields, ← hname', ← hkind, ← hthreshold, ← hhysteresis, ← hdelay, ← hseverity,
      ← hnotify, ← henabled]
  · rintro ⟨rfl, h⟩
    exact ⟨r, ⟨_, r.enabled, ⟨_, r.notify, ⟨_, r.severity, ⟨_, r.delayS, ⟨_, r.hysteresis,
      ⟨_, r.threshold, ⟨_, r.kind, ⟨r.name, ⟨h.name, rfl⟩, rfl⟩, rfl, rfl⟩, rfl, rfl⟩,
      ⟨_, rfl, h.hysteresis, rfl⟩, rfl⟩, ⟨_, rfl, h.delay, rfl⟩, rfl⟩, rfl, rfl⟩,
      ⟨_, ⟨_, rfl, h.count, rfl⟩, h.channels, rfl⟩, rfl⟩, rfl, rfl⟩, h.threshold, rfl⟩

theorem validate_fields_iff {r : RuleIn} : validate env r.fields = .valid r ↔ r.Coherent env := by
  rw [validate_eq_valid_iff, and_iff_right rfl]

/-! ## Columns written alone -/

/-- The kind, if it is written without the threshold, suits the threshold of the rule; the
threshold, if it is written without the kind, suits its kind. -/
def Suits (changes : RuleChanges) (r : RuleIn) : Prop :=
  match changes.kind, changes.threshold with
  | some kind, none => checkThreshold kind r.threshold = .ok ()
  | none, some threshold => checkThreshold r.kind threshold = .ok ()
  | some _, some _ | none, none => True

/-- The threshold, if the kind is written without it, is still the one loaded; the kind, if the
threshold is written without it, is. -/
def OtherAsRead (loaded : RuleIn) (changes : RuleChanges) (r : RuleIn) : Prop :=
  match changes.kind, changes.threshold with
  | some _, none => r.threshold = loaded.threshold
  | none, some _ => r.kind = loaded.kind
  | some _, some _ | none, none => True

instance (loaded : RuleIn) (changes : RuleChanges) (r : RuleIn) :
    Decidable (OtherAsRead loaded changes r) := by
  unfold OtherAsRead
  split <;> infer_instance

theorem prop_getD_diff {α : Type} [DecidableEq α] {P : α → Prop} {old new r : α} (hnew : P new)
    (hr : P r) : P ((diff old new).getD r) := by
  rw [diff]
  split
  · exact hr
  · exact hnew

theorem eq_of_diff {α : Type} [DecidableEq α] {old new a : α} (h : diff old new = some a) :
    a = new := by
  rw [diff] at h
  split at h
  · nomatch h
  · exact (Option.some.inj h).symm

theorem eq_of_diff_eq_none {α : Type} [DecidableEq α] {old new : α} (h : diff old new = none) :
    new = old := by
  rw [diff] at h
  split at h
  · assumption
  · nomatch h

/-- What was validated over the rule loaded suits the rule stored, where the column it goes with is
the same. -/
theorem suits_of_otherAsRead {loaded checked r : RuleIn} (hchecked : checked.Coherent env)
    (hread : OtherAsRead loaded (.between loaded checked) r) :
    Suits (.between loaded checked) r := by
  have hthreshold := hchecked.threshold
  rw [OtherAsRead, RuleChanges.between] at hread
  rw [Suits, RuleChanges.between]
  dsimp only at hread ⊢
  cases hkind : diff loaded.kind checked.kind with
  | none =>
    cases hsame : diff loaded.threshold checked.threshold with
    | none => trivial
    | some threshold =>
      rw [hkind, hsame] at hread
      dsimp only at hread ⊢
      rw [eq_of_diff hsame, hread, ← eq_of_diff_eq_none hkind]
      exact hthreshold
  | some kind =>
    cases hsame : diff loaded.threshold checked.threshold with
    | none =>
      rw [hkind, hsame] at hread
      dsimp only at hread ⊢
      rw [eq_of_diff hkind, hread, ← eq_of_diff_eq_none hsame]
      exact hthreshold
    | some threshold => trivial

/-- **What is written over a coherent rule, once validated, leaves a coherent rule if and only if
the kind or the threshold, written alone, suits the other.** -/
theorem coherent_set_iff {loaded checked r : RuleIn} (hchecked : checked.Coherent env)
    (hr : r.Coherent env) : (r.set (.between loaded checked)).Coherent env ↔
      Suits (.between loaded checked) r := by
  -- Everything but the kind and the threshold is about one column.
  have hrest : (r.set (.between loaded checked)).Coherent env ↔
      checkThreshold ((diff loaded.kind checked.kind).getD r.kind)
        ((diff loaded.threshold checked.threshold).getD r.threshold) = .ok () := by
    refine ⟨fun h ↦ h.threshold, fun h ↦ ?_⟩
    exact ⟨prop_getD_diff (P := (nameError · = none)) hchecked.name hr.name, h,
      prop_getD_diff (P := (hysteresisError · = none)) hchecked.hysteresis hr.hysteresis,
      prop_getD_diff (P := (Schema.intError 0 86400 · = none)) hchecked.delay hr.delay,
      prop_getD_diff (P := (countError · = none)) hchecked.count hr.count,
      prop_getD_diff (P := (checkChannels env · = .ok ())) hchecked.channels hr.channels⟩
  rw [hrest, Suits, RuleChanges.between]
  dsimp only
  cases hkind : diff loaded.kind checked.kind with
  | none =>
    cases hthreshold : diff loaded.threshold checked.threshold with
    | none => exact iff_of_true hr.threshold trivial
    | some threshold => rfl
  | some kind =>
    cases hthreshold : diff loaded.threshold checked.threshold with
    | none => rfl
    | some threshold =>
      rw [eq_of_diff hkind, eq_of_diff hthreshold]
      exact iff_of_true hchecked.threshold trivial

/-! ## Runs -/

/-- Where a commit writes one of the two columns that go together, the other is still as it was
read. -/
def otherAsRead : Conditions RuleQuery RulesDb RuleOutcome where
  read _ _ := True
  commit
    | .updated loaded checked, s => ∀ row ∈ s.rules, row.id = loaded.id →
        OtherAsRead loaded.toRuleIn (.between loaded.toRuleIn checked) row.toRuleIn
    | _, _ => True

/-- The rule is coherent, as long as it is stored. -/
def RulesDb.Coherent (env : ChannelEnv) (id : Uuid) (s : RulesDb) : Prop :=
  ∀ row ∈ s.rules, row.id = id → row.toRuleIn.Coherent env

/-- What a commit guarantees. -/
def KeepsCoherent (env : ChannelEnv) (s : RulesDb) (ws : List RuleWrite) (_ : RuleOutcome) : Prop :=
  ∀ id, s.Coherent env id → (ruleSchema.run ws s).Coherent env id

theorem keepsCoherent_update {loaded : AlarmRuleRow} {checked : RuleIn} {audit : RuleAudit}
    {r : RuleOutcome} (hchecked : checked.Coherent env)
    (hread : ∀ row ∈ s.rules, row.id = loaded.id →
      OtherAsRead loaded.toRuleIn (.between loaded.toRuleIn checked) row.toRuleIn) :
    KeepsCoherent env s [.update loaded.id (.between loaded.toRuleIn checked), .audit audit] r := by
  intro id hs row hrow hid
  obtain ⟨old, hold, rfl⟩ := List.mem_map.mp hrow
  by_cases hloaded : old.id = loaded.id
  · rw [if_pos hloaded] at hid ⊢
    have hsuits := suits_of_otherAsRead hchecked (hread old hold hloaded)
    exact (coherent_set_iff hchecked (hs old hold hid)).mpr hsuits
  · rw [if_neg hloaded] at hid ⊢
    exact hs old hold hid

theorem valid_program (q : RuleRequest) :
    Valid ruleSchema otherAsRead (KeepsCoherent env) (q.program env) [] s := by
  refine valid_read stable_true trivial fun t _ _ ↦ ?_
  split
  · trivial
  · rename_i rule _
    dsimp only
    split
    · trivial
    · rename_i checked hvalid
      have hchecked := (validate_eq_valid_iff.mp hvalid).2
      split
      · trivial
      · refine valid_write stable_true trivial fun t _ _ ↦ ?_
        refine valid_write stable_true trivial fun t _ _ ↦ ?_
        exact valid_commit stable_true trivial fun t _ hread ↦
          keepsCoherent_update hchecked hread

/-- **A rule that is coherent stays so**, in every run in which a request that writes the kind or
the threshold alone is committed while the other is still as it was read. -/
theorem rule_coherent {ι : Type} [DecidableEq ι] (env : ChannelEnv) (id : Uuid)
    {y : System ι _ _ _ _} {ls : List (Label ι RuleRequest)} (hs : s.Coherent env id)
    (hrun : System.Run ruleSchema (RuleRequest.program env) otherAsRead (System.idle s) ls y) :
    y.db.Coherent env id :=
  System.Run.invariant (G := KeepsCoherent env) (fun t _ ↦ t.Coherent env id)
    (fun q _ _ _ ↦ valid_program q) (fun _ _ _ _ ht hkeeps ↦ hkeeps id ht) hs hrun

instance (query : RuleQuery) (s : RulesDb) : Decidable (otherAsRead.read query s) := .isTrue trivial

instance (r : RuleOutcome) (s : RulesDb) : Decidable (otherAsRead.commit r s) :=
  match r with
  | .updated _ _ => inferInstanceAs (Decidable (∀ row ∈ s.rules, _ → _))
  | .refused _ _ | .invalid _ | .unchanged _ | .failed => .isTrue trivial

/-! ## Two requests -/

/-- No channel is given. -/
def noChannels : ChannelEnv := ⟨fun _ ↦ false, fun text ↦ text⟩

/-- A rule on the event state of a point, with a threshold that is not used. -/
def eventRule : AlarmRuleRow where
  id := 1
  pointId := 1
  name := none
  kind := .bacnetEvent
  threshold := some (.fin 5)
  hysteresis := .fin 0
  delayS := 0
  severity := .warning
  notify := []
  enabled := true

def oneRule : RulesDb := ⟨[eventRule], fun _ ↦ none, []⟩

theorem coherent_oneRule : oneRule.Coherent noChannels 1 := by
  intro row hrow _
  obtain rfl := List.mem_singleton.mp hrow
  exact validate_fields_iff.mp (by rfl)

def makeHigh : RuleRequest := ⟨1, 1, { RuleUpdate.empty with kind := some (some .high) }⟩

def dropThreshold : RuleRequest := ⟨2, 1, { RuleUpdate.empty with threshold := some none }⟩

/-- The kind is changed first; the threshold can then not be dropped. -/
def oneByOne : List (Label ℕ RuleRequest) :=
  [.start 1 makeHigh] ++ List.replicate 4 (.advance 1) ++
    [.start 2 dropThreshold] ++ List.replicate 2 (.advance 2)

theorem rule_coherent_oneByOne : ∃ y, System.Run ruleSchema (RuleRequest.program noChannels)
    otherAsRead (System.idle oneRule) oneByOne y ∧
      y.db.rules.map (fun row ↦ (row.kind, row.threshold)) = [(.high, some (.fin 5))] ∧
        y.db.Coherent noChannels 1 := by
  have hrules : ((Trace.exec (fun x l ↦ if System.Meets ruleSchema otherAsRead x l then
      System.next ruleSchema (RuleRequest.program noChannels) x l else none) (System.idle oneRule)
      oneByOne).map fun y ↦ y.db.rules.map fun row ↦ (row.kind, row.threshold)) =
        some [(.high, some (.fin 5))] := by
    decide
  obtain ⟨y, hy, hrules⟩ := Option.map_eq_some_iff.mp hrules
  have hrun : System.Run ruleSchema (RuleRequest.program noChannels) otherAsRead
      (System.idle oneRule) oneByOne y := .of_exec_checked hy
  exact ⟨y, hrun, hrules, rule_coherent noChannels 1 coherent_oneRule hrun⟩

/-- Both have read the rule before either is committed. -/
def interleaved : List (Label ℕ RuleRequest) :=
  [.start 1 makeHigh, .start 2 dropThreshold, .advance 1, .advance 2] ++
    List.replicate 3 (.advance 1) ++ List.replicate 3 (.advance 2)

/-- Both are committed, and leave a `high` rule without a threshold. -/
theorem not_coherent : ¬ ∀ (s : RulesDb) (id : Uuid) (ls : List (Label ℕ RuleRequest))
    (y : System ℕ RuleQuery RulesDb RuleWrite RuleOutcome), s.Coherent noChannels id →
      System.Run ruleSchema (RuleRequest.program noChannels) .none (System.idle s) ls y →
        y.db.Coherent noChannels id := by
  intro hall
  have hrules : ((Trace.exec (System.next ruleSchema (RuleRequest.program noChannels))
      (System.idle oneRule) interleaved).map fun y ↦ y.db.rules.map fun row ↦
        (row.id, checkThreshold row.kind row.threshold)) =
          some [(1, .error "threshold est obligatoire pour une règle high")] := by
    decide
  obtain ⟨y, hy, hrules⟩ := Option.map_eq_some_iff.mp hrules
  obtain ⟨row, hrow, heq⟩ : ∃ row ∈ y.db.rules, (row.id, checkThreshold row.kind row.threshold) =
      (1, .error "threshold est obligatoire pour une règle high") :=
    List.mem_map.mp (hrules ▸ List.mem_singleton_self _)
  obtain ⟨hid, hcheck⟩ := Prod.mk.inj heq
  have hcoherent := hall _ _ _ y coherent_oneRule
    (.of_exec (fun l _ x ↦ System.meets_none _ x l) hy) row hrow hid
  nomatch hcheck.symm.trans hcoherent.threshold

end Superviseur.AlarmRules
