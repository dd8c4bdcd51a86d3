import Superviseur.Api.DocumentSchema
import Superviseur.Library.ReadCommitted

/-!
# Changing an alarm rule

`PATCH /alarm-rules/{id}` reads the rule, puts the fields of the request over it and validates the
result as a whole; then the ORM writes the columns that have changed since the rule was read, and no
others. The entry of the audit log recalls these columns, before and after.

The author of the request is authenticated before, which reads no rule.
-/

namespace Superviseur

/-- The stored text of a kind. -/
def AlarmKind.value : AlarmKind → String
  | high => "high"
  | low => "low"
  | state => "state"
  | stale => "stale"
  | commLost => "comm_lost"
  | bacnetEvent => "bacnet_event"

/-- `THRESHOLD_KINDS`. -/
def thresholdKinds : List AlarmKind := [.high, .low, .state, .stale]

namespace AlarmRules

/-! ## Channels -/

/-- What the validation of a channel leaves to the language. -/
structure ChannelEnv where
  /-- `valid_webhook_url`. -/
  webhook : List Char → Bool
  /-- `repr` of a text. -/
  repr : String → String

/-- `MAX_CHANNELS`. -/
def maxChannels : ℕ := 10

/-- `_EMAIL.match`. -/
def isEmail (text : List Char) : Bool :=
  match (dropLineBreak text).splitOn '@' with
  | [user, host] =>
    !user.isEmpty && !user.any Unicode.isPySpace && !host.any Unicode.isPySpace &&
      (host.drop 1).dropLast.contains '.'
  | _ => false

/-- `validate_channel`. -/
def validateChannel (env : ChannelEnv) (channel : String) : Except String Unit :=
  let kind := channel.toList.takeWhile (· ≠ ':')
  let target := (channel.toList.dropWhile (· ≠ ':')).drop 1
  if kind = "email".toList ∧ (target = [] ∨ isEmail target) then .ok ()
  else if kind = "webhook".toList ∧ env.webhook target then .ok ()
  else .error ("canal invalide : " ++ env.repr channel ++ " (email, email:adresse ou webhook:url)")

/-! ## Rules -/

/-- The fields of `AlarmRuleIn`, the point left out. -/
structure RuleIn where
  name : Option String
  kind : AlarmKind
  threshold : Option PyFloat
  hysteresis : PyFloat
  delayS : ℤ
  severity : Severity
  notify : List String
  enabled : Bool
  deriving DecidableEq

/-- The same before validation, where any of them may be null. -/
structure RuleFields where
  name : Option String
  kind : Option AlarmKind
  threshold : Option PyFloat
  hysteresis : Option PyFloat
  delayS : Option ℤ
  severity : Option Severity
  notify : Option (List String)
  enabled : Option Bool

def RuleIn.fields (r : RuleIn) : RuleFields :=
  ⟨r.name, some r.kind, r.threshold, some r.hysteresis, some r.delayS, some r.severity,
    some r.notify, some r.enabled⟩

/-- `_threshold_required`. -/
def checkThreshold (kind : AlarmKind) (threshold : Option PyFloat) : Except String Unit :=
  if kind ∈ thresholdKinds ∧ threshold = none then
    .error ("threshold est obligatoire pour une règle " ++ kind.value)
  else if kind = .stale ∧ (threshold.getD (.fin 0)).le (.fin 0) then
    .error "threshold (secondes) doit être positif pour une règle stale"
  else .ok ()

section Validation

open Schema

variable (env : ChannelEnv)

/-- A field that may not be null. -/
def required {α : Type} (msg : String) : Option α → Checked α
  | some a => .valid a
  | none => refuse msg

def nameError (name : Option String) : Option FieldError := name.bind (lengthError 0 255)

def hysteresisError (x : PyFloat) : Option FieldError :=
  if x.lt (.fin 0) then some ⟨[], "Input should be greater than or equal to 0"⟩ else none

def countError (channels : List String) : Option FieldError :=
  if maxChannels < channels.length then
    some ⟨[], s!"List should have at most {maxChannels} items after validation, " ++
      s!"not {channels.length}"⟩
  else none

/-- `_channels`. -/
def checkChannels (channels : List String) : Except String Unit :=
  channels.forM (validateChannel env)

/-- `AlarmRuleIn.model_validate`. -/
def validate (fields : RuleFields) : Checked RuleIn :=
  (RuleIn.mk
      <$> within "name" (.check nameError fields.name)
      <*> within "kind" (required
        "Input should be 'high', 'low', 'state', 'stale', 'comm_lost' or 'bacnet_event'"
        fields.kind)
      <*> .valid fields.threshold
      <*> within "hysteresis" ((required "Input should be a valid number" fields.hysteresis).andThen
        (.check hysteresisError))
      <*> within "delay_s" ((required "Input should be a valid integer" fields.delayS).andThen
        (.check (intError 0 86400)))
      <*> within "severity" (required "Input should be 'info', 'warning' or 'critical'"
        fields.severity)
      <*> within "notify" (((required "Input should be a valid list" fields.notify).andThen
        (.check countError)).andThen (.check (raising (checkChannels env))))
      <*> within "enabled" (required "Input should be a valid boolean" fields.enabled)).andThen
    (.check (raising fun r ↦ checkThreshold r.kind r.threshold))

/-- What the validation of a rule asks for. -/
structure RuleIn.Coherent (r : RuleIn) : Prop where
  name : nameError r.name = none
  threshold : checkThreshold r.kind r.threshold = .ok ()
  hysteresis : hysteresisError r.hysteresis = none
  delay : intError 0 86400 r.delayS = none
  count : countError r.notify = none
  channels : checkChannels env r.notify = .ok ()

end Validation

/-! ## The table -/

/-- A row of `alarm_rule`. -/
structure AlarmRuleRow extends RuleIn where
  id : Uuid
  pointId : Uuid
  deriving DecidableEq

/-- The columns an update writes. -/
structure RuleChanges where
  name : Option (Option String)
  kind : Option AlarmKind
  threshold : Option (Option PyFloat)
  hysteresis : Option PyFloat
  delayS : Option ℤ
  severity : Option Severity
  notify : Option (List String)
  enabled : Option Bool

/-- A row of the audit log, as this request records it. -/
structure RuleAudit where
  userId : Uuid
  target : String
  before : RuleChanges
  after : RuleChanges

structure RulesDb where
  rules : List AlarmRuleRow
  /-- The path of each point. -/
  paths : Uuid → Option String
  audits : List RuleAudit

def RulesDb.rule? (s : RulesDb) (id : Uuid) : Option AlarmRuleRow :=
  s.rules.find? fun row ↦ row.id = id

/-- What a column is written as: nothing if it has not changed. -/
def diff {α : Type} [DecidableEq α] (old new : α) : Option α :=
  if new = old then none else some new

/-- The columns of `new` that differ from those of `old`. -/
def RuleChanges.between (old new : RuleIn) : RuleChanges where
  name := diff old.name new.name
  kind := diff old.kind new.kind
  threshold := diff old.threshold new.threshold
  hysteresis := diff old.hysteresis new.hysteresis
  delayS := diff old.delayS new.delayS
  severity := diff old.severity new.severity
  notify := diff old.notify new.notify
  enabled := diff old.enabled new.enabled

/-- The columns given replace those of the rule. -/
def RuleIn.set (r : RuleIn) (changes : RuleChanges) : RuleIn where
  name := changes.name.getD r.name
  kind := changes.kind.getD r.kind
  threshold := changes.threshold.getD r.threshold
  hysteresis := changes.hysteresis.getD r.hysteresis
  delayS := changes.delayS.getD r.delayS
  severity := changes.severity.getD r.severity
  notify := changes.notify.getD r.notify
  enabled := changes.enabled.getD r.enabled

inductive RuleWrite where
  /-- `UPDATE alarm_rule`, of the columns given. -/
  | update (id : Uuid) (changes : RuleChanges)
  | audit (row : RuleAudit)

namespace RuleWrite

def apply : RuleWrite → RulesDb → RulesDb
  | update id changes, s => { s with
      rules := s.rules.map fun row ↦
        if row.id = id then { row with toRuleIn := row.toRuleIn.set changes } else row }
  | audit row, s => { s with audits := s.audits ++ [row] }

/-- The same row. -/
def conflicts : RuleWrite → RuleWrite → Bool
  | update id _, update id' _ => id = id'
  | _, _ => false

/-- A number that a `jsonb` column takes. -/
def isJson (changes : RuleChanges) : Bool :=
  (changes.threshold.all fun threshold ↦ threshold.all PyFloat.isFinite) &&
    changes.hysteresis.all PyFloat.isFinite

/-- The row to update is there; an entry of the audit log is in JSON. -/
def allowed : RuleWrite → RulesDb → Bool
  | update id _, s => (s.rule? id).isSome
  | audit row, _ => isJson row.before && isJson row.after

theorem conflicts_comm (w w' : RuleWrite) : conflicts w w' = conflicts w' w := by
  cases w <;> cases w' <;> simp [conflicts, eq_comm]

end RuleWrite

def ruleSchema : ReadCommitted.Schema RulesDb RuleWrite where
  apply := RuleWrite.apply
  conflicts := RuleWrite.conflicts
  conflicts_comm := RuleWrite.conflicts_comm
  allowed := RuleWrite.allowed

/-! ## Requests -/

/-- The body of the request: the fields it has, which may be null. -/
structure RuleUpdate where
  name : Option (Option String)
  kind : Option (Option AlarmKind)
  threshold : Option (Option PyFloat)
  hysteresis : Option (Option PyFloat)
  delayS : Option (Option ℤ)
  severity : Option (Option Severity)
  notify : Option (Option (List String))
  enabled : Option (Option Bool)

/-- A body that changes nothing. -/
def RuleUpdate.empty : RuleUpdate := ⟨none, none, none, none, none, none, none, none⟩

/-- `merged`. -/
def RuleUpdate.over (body : RuleUpdate) (before : RuleIn) : RuleFields where
  name := body.name.getD before.name
  kind := body.kind.getD before.kind
  threshold := body.threshold.getD before.threshold
  hysteresis := body.hysteresis.getD before.hysteresis
  delayS := body.delayS.getD before.delayS
  severity := body.severity.getD before.severity
  notify := body.notify.getD before.notify
  enabled := body.enabled.getD before.enabled

inductive RuleQuery where
  | ruleAndPoint

/-- The outcome of a request; a commit recalls the rule as it was read and as it was validated. -/
inductive RuleOutcome where
  | refused (code : ℕ) (detail : String)
  | invalid (errors : List Schema.FieldError)
  | unchanged (rule : AlarmRuleRow)
  | updated (loaded : AlarmRuleRow) (checked : RuleIn)
  /-- An exception the handler does not catch. -/
  | failed

abbrev RuleProg := ReadCommitted.Prog RuleQuery RulesDb RuleWrite RuleOutcome

/-- `_rule_and_point`, and the 404 where there is no such rule. -/
def ruleAndPoint (id : Uuid) (k : AlarmRuleRow → Option String → RuleProg) : RuleProg :=
  .read .ruleAndPoint fun s ↦
    match s.rule? id with
    | none => .rollback (.refused 404 "règle introuvable")
    | some row => k row (s.paths row.pointId)

/-- A request of `update_rule`. -/
structure RuleRequest where
  user : Uuid
  id : Uuid
  body : RuleUpdate

/-- `update_rule`. -/
def RuleRequest.program (env : ChannelEnv) (q : RuleRequest) : RuleProg :=
  ruleAndPoint q.id fun rule path ↦
    match validate env (q.body.over rule.toRuleIn) with
    | .invalid errors => .rollback (.invalid errors)
    | .valid checked =>
      if checked = rule.toRuleIn then .rollback (.unchanged rule)
      else
        .write (.update rule.id (.between rule.toRuleIn checked))
          (.write (.audit ⟨q.user, textOr path (UuidText.write rule.pointId),
              .between checked rule.toRuleIn, .between rule.toRuleIn checked⟩)
            (.commit (.updated rule checked)) .failed) .failed

end AlarmRules

end Superviseur
