import Superviseur.Collector.Writer

/-!
# What reaches the driver

`execute` hands a command to the driver in exactly one case: its fields convert, its point exists,
it is recent enough, and `_refusal` has nothing against it. Everything proved about the writer
starts from this case (`Accepted`) or from its absence.
-/

namespace Superviseur

namespace Writer

variable {env : WriterEnv} {command : Dict} {request : Request} {target : WriteTarget}

/-! ## The checks -/

/-- No bound of the point is crossed, as the comparisons of the language see it. -/
def InBounds (target : WriteTarget) (x : PyFloat) : Prop :=
  (∀ m ∈ target.writeMin, x.lt m = false) ∧ ∀ m ∈ target.writeMax, m.lt x = false

theorem boundsRefusal_eq_none_iff {texts : Texts} {x : PyFloat} :
    boundsRefusal texts target x = none ↔ InBounds target x := by
  rw [boundsRefusal, InBounds]
  rcases target.writeMin with - | low <;> rcases target.writeMax with - | high
  · simp
  · rcases h : high.lt x <;> simp [Option.filter, h]
  · rcases h : x.lt low <;> simp [Option.filter, h]
  · rcases h : x.lt low <;> rcases h' : high.lt x <;> simp [Option.filter, h, h']

/-- What `_refusal` lets through. -/
structure Allowed (env : WriterEnv) (target : WriteTarget) (request : Request) : Prop where
  role : ∃ user, request.userId = some user ∧
    ∃ name ∈ writerRoles, env.getUserRole user = .ok (some name)
  writable : target.writable = true
  priority : 1 ≤ request.priority ∧ request.priority ≤ 16
  bounds : ∀ x ∈ request.value, InBounds target x

theorem refusal_eq_none_iff {target : Option WriteTarget} :
    refusal env target request.value request.priority request.userId = .ok none ↔
      ∃ t, target = some t ∧ Allowed env t request := by
  rcases request with ⟨pointId, value, priority, user⟩
  constructor
  · intro h
    unfold refusal at h
    rcases user with - | user
    · simp at h
    rcases hrole : env.getUserRole user with exc | role
    · simp [hrole] at h
    simp only [hrole] at h
    split at h
    · simp at h
    rename_i hknown
    rcases target with - | t
    · simp at h
    simp only at h
    split at h
    · simp at h
    rename_i hwritable
    split at h
    · simp at h
    rename_i hpriority
    obtain ⟨name, rfl, hname⟩ : ∃ name, role = some name ∧ name ∈ writerRoles := by
      rcases role with - | name
      · simp at hknown
      · exact ⟨name, rfl, by simpa using hknown⟩
    refine ⟨t, rfl, ⟨user, rfl, name, hname, hrole⟩, by simpa using hwritable,
      by simpa using hpriority, ?_⟩
    rintro x ⟨⟩
    exact boundsRefusal_eq_none_iff.mp (by simpa using h)
  · rintro ⟨t, rfl, ⟨user, hu, name, hname, hrole⟩, hwritable, hpriority, hbounds⟩
    simp only at hu hpriority hbounds
    subst hu
    unfold refusal
    rcases value with - | x
    · simp [hrole, hname, hwritable, hpriority]
    · have hx : boundsRefusal env.texts t x = none :=
        boundsRefusal_eq_none_iff.mpr (hbounds x rfl)
      simp [hrole, hname, hwritable, hpriority, hx]

theorem refusalOf_eq_none_iff {target : Option WriteTarget} :
    refusalOf env command target request = .ok none ↔
      expired env command = .ok false ∧ ∃ t, target = some t ∧ Allowed env t request := by
  rw [← refusal_eq_none_iff, refusalOf]
  rcases expired env command with exc | old | old <;> simp

/-- The command passes every check of `execute`. -/
structure Accepted (env : WriterEnv) (command : Dict) (request : Request) (target : WriteTarget) :
    Prop where
  read : readRequest env.texts command = .ok request
  found : env.getWriteTarget request.pointId = .ok (some target)
  recent : expired env command = .ok false
  allowed : Allowed env target request

theorem Accepted.unique {request' : Request} {target' : WriteTarget}
    (h : Accepted env command request target) (h' : Accepted env command request' target') :
    request' = request ∧ target' = target := by
  have hr : request' = request := Except.ok.inj (h'.read.symm.trans h.read)
  subst hr
  exact ⟨rfl, Option.some.inj (Except.ok.inj (h'.found.symm.trans h.found))⟩

/-! ## The two cases -/

/-- The call of the driver for a command that passed. -/
def driverCall (env : WriterEnv) (request : Request) (target : WriteTarget) : DriverCall where
  point := target.ref
  value := request.value
  priority := request.priority
  sent := (env.write target.ref request.value request.priority).1
  outcome := (env.write target.ref request.value request.priority).2

/-- The state after the call of the driver. -/
def called (w : WriterState) (call : DriverCall) : WriterState :=
  { w with calls := w.calls ++ [call] }

/-- The state after the row of a write was added, and the point read back. -/
def recorded (env : WriterEnv) (w : WriterState) (row : AuditRow) (target : WriteTarget)
    (result : WriteResult) : WriterState :=
  { w with
    audits := w.audits ++ [row]
    refreshed := if result.ok ∧ env.refreshes then w.refreshed ++ [target.ref] else w.refreshed }

/-- A command that passed is handed to the driver, then recorded unless one of the two raises. -/
theorem execute_of_accepted (h : Accepted env command request target) (w : WriterState) :
    execute env command w =
      match (driverCall env request target).outcome with
      | .error exc => .error exc (called w (driverCall env request target))
      | .ok result =>
        match env.addAudit (request.auditRow env.texts (some target) result) with
        | .error exc => .error exc (called w (driverCall env request target))
        | .ok _ => .ok result (recorded env (called w (driverCall env request target))
            (request.auditRow env.texts (some target) result) target result) := by
  have hrefusal := refusalOf_eq_none_iff.mpr ⟨h.recent, target, rfl, h.allowed⟩
  have hcall : carryOut env request none (some target) w =
      EState.call (driverCall env request target).outcome
        (called w (driverCall env request target)) := rfl
  unfold execute
  simp only [EState.bind_apply, h.read, h.found, hrefusal, EState.call_ok, hcall]
  rcases (driverCall env request target).outcome with exc | result
  · rfl
  · simp only [EState.call_ok, addAudit, EState.bind_apply]
    rcases env.addAudit (request.auditRow env.texts (some target) result) with exc | _
    · rfl
    · by_cases hr : result.ok ∧ env.refreshes <;> simp [refresh, recorded, hr]

theorem calls_of_accepted (h : Accepted env command request target) (w : WriterState) :
    (EState.after (execute env command) w).calls = w.calls ++ [driverCall env request target] := by
  rw [EState.after, execute_of_accepted h]
  rcases (driverCall env request target).outcome with exc | result
  · rfl
  · simp only
    rcases env.addAudit (request.auditRow env.texts (some target) result) with exc | _ <;> rfl

theorem accepted_or_not (env : WriterEnv) (command : Dict) :
    (∃ request target, Accepted env command request target) ∨
      ∀ request target, ¬ Accepted env command request target := by
  by_cases h : ∃ request target, Accepted env command request target
  · exact .inl h
  · exact .inr fun request target hacc ↦ h ⟨request, target, hacc⟩

/-- Any other command leaves the driver alone, and is not answered by a success. -/
theorem execute_of_not_accepted (h : ∀ request target, ¬ Accepted env command request target)
    (w : WriterState) :
    (EState.after (execute env command) w).calls = w.calls ∧
      ∀ result w', execute env command w = .ok result w' → result.ok = false := by
  unfold EState.after execute
  rcases hread : readRequest env.texts command with exc | request
  · simp
  rcases hfound : env.getWriteTarget request.pointId with exc | target
  · simp [hfound]
  rcases hrefused : refusalOf env command target request with exc | refused
  · simp [hfound, hrefused]
  rcases refused with - | text
  · obtain ⟨hrecent, t, rfl, hallowed⟩ := refusalOf_eq_none_iff.mp hrefused
    exact absurd ⟨hread, hfound, hrecent, hallowed⟩ (h request t)
  have hrefuses : carryOut env request (some text) target w = .ok ⟨false, some text⟩ w := rfl
  simp only [EState.bind_apply, EState.call_ok, hfound, hrefused, hrefuses, addAudit]
  rcases env.addAudit (request.auditRow env.texts target ⟨false, some text⟩) with exc | _
  · simp
  · rcases target with - | t <;> simp [refresh]

/-! ## Stages -/

/-- The conversions, the target, and the age of the command. -/
def check (env : WriterEnv) (command : Dict) : Except Answer (Request × Option WriteTarget) :=
  match readRequest env.texts command with
  | .error exc => .error (invalidCommand exc)
  | .ok request =>
    match env.getWriteTarget request.pointId with
    | .error exc => .error (invalidCommand exc)
    | .ok target =>
      match expired env command with
      | .error exc => .error (invalidCommand exc)
      | .ok true => .error ⟨false, some "commande expirée"⟩
      | .ok false => .ok (request, target)

/-- `_refusal`. -/
def authorise (env : WriterEnv) (_ : Dict) (checked : Request × Option WriteTarget) :
    Except Answer (Request × WriteTarget) :=
  match refusal env checked.2 checked.1.value checked.1.priority checked.1.userId with
  | .error exc => .error (invalidCommand exc)
  | .ok refused =>
    match refused, checked.2 with
    | none, some t => .ok (checked.1, t)
    | refused, _ => .error ⟨false, refused⟩

/-- The call of the driver and what follows it. -/
def apply (env : WriterEnv) (authorised : Request × WriteTarget) (w : WriterState) :
    Answer × WriterState :=
  let written := do
    let result ← carryOut env authorised.1 none (some authorised.2)
    addAudit env (authorised.1.auditRow env.texts (some authorised.2) result)
    refresh env (some authorised.2) result
    return ⟨result.ok, result.error⟩
  (answerOf (written w), EState.after written w)

def service : Service WriterEnv (Request × Option WriteTarget) (Request × WriteTarget)
    WriterState where
  now := WriterEnv.now
  check := check
  authorise := authorise
  apply := apply

/-- The stages let a command through to the driver exactly when the execution does. -/
theorem authorised_iff_accepted :
    (∃ checked, service.check env command = .ok checked ∧
        service.authorise env command checked = .ok (request, target)) ↔
      Accepted env command request target := by
  constructor
  · rintro ⟨⟨request', found⟩, hcheck, hauthorise⟩
    simp only [service, check] at hcheck
    rcases hread : readRequest env.texts command with exc | read
    · simp [hread] at hcheck
    rcases hfound : env.getWriteTarget read.pointId with exc | target'
    · simp [hread, hfound] at hcheck
    rcases hrecent : expired env command with exc | old | old
    · simp [hread, hfound, hrecent] at hcheck
    · simp only [hread, hfound, hrecent, Except.ok.injEq, Prod.mk.injEq] at hcheck
      obtain ⟨rfl, rfl⟩ := hcheck
      simp only [service, authorise] at hauthorise
      rcases hrefusal : refusal env target' read.value read.priority read.userId with exc | refused
      · simp [hrefusal] at hauthorise
      rcases refused with - | text
      · obtain ⟨t, rfl, hallowed⟩ := refusal_eq_none_iff.mp hrefusal
        simp only [hrefusal, Except.ok.injEq, Prod.mk.injEq] at hauthorise
        obtain ⟨rfl, rfl⟩ := hauthorise
        exact ⟨hread, hfound, hrecent, hallowed⟩
      · simp [hrefusal] at hauthorise
    · simp [hread, hfound, hrecent] at hcheck
  · intro h
    have hrefusal := refusal_eq_none_iff.mpr ⟨target, rfl, h.allowed⟩
    refine ⟨(request, some target), ?_, ?_⟩
    · simp [service, check, h.read, h.found, h.recent]
    · simp [service, authorise, hrefusal]

/-! ## A setpoint bounded to 0..100 -/

/-- Identifiers are read from their last digit here, which is all that the commands below need. -/
def shortTexts : Texts where
  float _ := .error "could not convert string to float"
  int _ := .error "invalid literal for int() with base 10"
  uuid s := match s with
    | "00000000-0000-0000-0000-000000000001" => .ok 1
    | "00000000-0000-0000-0000-000000000002" => .ok 2
    | _ => .error "badly formed hexadecimal UUID string"
  ofUuid n := if n = 1 then "00000000-0000-0000-0000-000000000001"
    else "00000000-0000-0000-0000-000000000002"
  repr _ := ""

def setpoint : WriteTarget where
  ref := ⟨1, 100, "10.0.0.5", "analog-value", 3⟩
  writable := true
  writeMin := some (.fin 0)
  writeMax := some (.fin 100)
  path := some "CTA/Consigne"
  lastValue := some (.fin 20)

/-- The setpoint is point 1, and user 2 is an operator; every call succeeds. -/
def setpointEnv : WriterEnv where
  texts := shortTexts
  now := .fin 1000
  maxAge := maxCommandAgeS
  getWriteTarget id := .ok (if id = 1 then some setpoint else none)
  getUserRole id := .ok (if id = 2 then some "operator" else none)
  addAudit _ := .ok ()
  write := BacnetDriver.write fun _ _ _ ↦ .written
  refreshes := true

/-- The body of the command the API sends for a write of `x` by user 2, at the default priority. -/
def writeFields (x : PyFloat) : Dict :=
  [("point_id", .str "00000000-0000-0000-0000-000000000001"), ("value", .float x),
    ("priority", .int 8), ("user_id", .str "00000000-0000-0000-0000-000000000002")]

def writeCommand (x : PyFloat) : Dict :=
  ("command_id", .str "c1") :: writeFields x ++ [("issued_at", .float (.fin 999))]

theorem accepted_writeCommand (x : PyFloat) (h : InBounds setpoint x)
    (write : PointRef → Option PyFloat → ℤ → Option Payload × Except String WriteResult)
    (addAudit : AuditRow → Except String Unit) :
    Accepted { setpointEnv with write := write, addAudit := addAudit } (writeCommand x)
      ⟨1, some x, 8, some 2⟩ setpoint where
  read := by rfl
  found := by rfl
  recent := by
    have hage : maxCommandAgeS.lt (PyFloat.sub (.fin 1000) (.fin 999)) = false := by
      decide +kernel
    exact congrArg Except.ok hage
  allowed := {
    role := ⟨2, rfl, "operator", by decide, rfl⟩
    writable := rfl
    priority := by simp
    bounds := by
      rintro x ⟨⟩
      exact h }

end Writer

end Superviseur
