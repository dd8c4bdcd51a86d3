import Superviseur.Api.DocumentSchema
import Superviseur.Api.SynopticStore

/-!
# From a document to a version

A request with a document first checks how long its JSON text is, then validates it; what it stores
is the document in full, with the defaults filled in. Restoring a version starts from what is stored
and makes the same checks again.

How long the text of a float is, is left to `floatLength`.
-/

namespace Superviseur

/-! ## The length of a text -/

/-- A character in a JSON text, where all that is not printable ASCII is escaped. -/
def charLength (c : Char) : ℕ :=
  if c ∈ ['\x22', '\\', '\n', '\r', '\t', '\x0c', '\x08'] then 2
  else if ' ' ≤ c ∧ c ≤ '~' then 1
  else if c.toNat < 0x10000 then 6
  else 12

def textLength (s : String) : ℕ := (s.toList.map charLength).sum + 2

section

variable (floatLength : PyFloat → ℕ)

mutual

/-- `len(json.dumps(x, separators=(",", ":")))`. -/
def dumpsLength : Json → ℕ
  | .null => 4
  | .bool b => if b then 4 else 5
  | .int n => (toString n).toList.length
  | .float x => floatLength x
  | .str s => textLength s
  | .arr items => itemsLength items - 1 + 2
  | .obj fields => fieldsLength fields - 1 + 2

/-- The items, each with a comma. -/
def itemsLength : List Json → ℕ
  | [] => 0
  | x :: items => dumpsLength x + 1 + itemsLength items

/-- The fields, each with a comma. -/
def fieldsLength : List (String × Json) → ℕ
  | [] => 0
  | (key, x) :: fields => textLength key + 1 + dumpsLength x + 1 + fieldsLength fields

end

end

/-! ## Validation -/

/-- `MAX_DOC_BYTES`. -/
def maxDocBytes : ℕ := 6 * 1024 * 1024

/-- Why a document is refused. -/
inductive Rejection where
  | tooLarge
  | invalid (errors : List Schema.FieldError)

/-- The answer; of the errors only the messages. -/
def Rejection.outcome : Rejection → SynopticOutcome
  | tooLarge => .refused 413 "synoptique trop volumineux (6 Mo)"
  | invalid errors => .refused 422 (String.intercalate "\n" (errors.map Schema.FieldError.msg))

/-- `_validated`. -/
def validated (floatLength : PyFloat → ℕ) (env : SchemaEnv) (raw : Dict) :
    Except Rejection Schema.SynopticDoc :=
  if maxDocBytes < dumpsLength floatLength (.obj raw) then .error .tooLarge
  else
    match validateDocument env raw with
    | .valid doc => .ok doc
    | .invalid errors => .error (.invalid errors)

/-- What a request stores of a document. -/
def Schema.SynopticDoc.stored (doc : Schema.SynopticDoc) : Superviseur.SynopticDoc :=
  ⟨doc.name, .obj doc.toJson, doc.widgets.length⟩

theorem Schema.SynopticDoc.named_stored (doc : Schema.SynopticDoc) : doc.stored.Named := by
  intro row hrow
  rw [VersionRow.name, hrow]
  rfl

/-- `_validated(old.content)`, and what is stored of it. -/
def validateStored (floatLength : PyFloat → ℕ) (env : SchemaEnv) :
    Json → Except SynopticOutcome SynopticDoc
  | .obj raw =>
    match validated floatLength env raw with
    | .ok doc => .ok doc.stored
    | .error rejection => .error rejection.outcome
  | _ => .error .failed

theorem named_of_validateStored {floatLength : PyFloat → ℕ} {env : SchemaEnv} {content : Json}
    {doc : SynopticDoc} (h : validateStored floatLength env content = .ok doc) : doc.Named := by
  cases content with
  | obj raw =>
    rw [validateStored] at h
    split at h
    · obtain rfl := Except.ok.inj h
      exact Schema.SynopticDoc.named_stored _
    · nomatch h
  | null | bool b | int n | float x | str text | arr items => nomatch h

/-! ## Requests -/

/-- What the requests take from elsewhere. -/
structure RequestEnv where
  schema : SchemaEnv
  floatLength : PyFloat → ℕ
  /-- The NFKD form of a text without what is not ASCII. -/
  ascii : String → List Char

inductive DocumentRequest where
  | create (slug : Option String) (raw : Dict) (id user : Uuid) (attempts : ℕ)
  | save (id : Uuid) (raw : Dict) (base : Option ℕ) (user : Uuid)
  | restore (id : Uuid) (version : ℕ) (user : Uuid)
  | delete (id user : Uuid)

namespace DocumentRequest

open SynopticStore

/-- The requests on a document that is validated before. -/
def onDocument (env : RequestEnv) (raw : Dict) (request : SynopticDoc → Request) :
    SynopticStore.Program :=
  match validated env.floatLength env.schema raw with
  | .ok doc => (request doc.stored).program (validateStored env.floatLength env.schema) env.ascii
  | .error rejection => .rollback (.edited rejection.outcome)

/-- The transaction of a request. -/
def program (env : RequestEnv) : DocumentRequest → SynopticStore.Program
  | create slug raw id user attempts =>
    onDocument env raw fun doc ↦ .create slug doc id user attempts
  | save id raw base user => onDocument env raw fun doc ↦ .edit (.save id doc base user)
  | restore id version user => Request.program (validateStored env.floatLength env.schema)
    env.ascii (.edit (.restore id version user))
  | delete id user => deleteSynoptic id user

/-- The requests are those of the store, on the documents that are accepted, which have their name
inside. -/
theorem program_eq (env : RequestEnv) (request : DocumentRequest) :
    (∃ outcome, request.program env = .rollback outcome) ∨
      ∃ request' : Request, request'.Named (validateStored env.floatLength env.schema) ∧
        request.program env =
          request'.program (validateStored env.floatLength env.schema) env.ascii := by
  have hdocument : ∀ raw (request : SynopticDoc → Request),
      (∀ doc, doc.Named → (request doc).Named (validateStored env.floatLength env.schema)) →
      (∃ outcome, onDocument env raw request = .rollback outcome) ∨
        ∃ request' : Request, request'.Named (validateStored env.floatLength env.schema) ∧
          onDocument env raw request =
            request'.program (validateStored env.floatLength env.schema) env.ascii := by
    intro raw request hrequest
    rw [onDocument]
    rcases validated env.floatLength env.schema raw with rejection | doc
    · exact .inl ⟨_, rfl⟩
    · exact .inr ⟨_, hrequest _ doc.named_stored, rfl⟩
  rcases request with ⟨slug, raw, id, user, attempts⟩ | ⟨id, raw, base, user⟩ |
    ⟨id, version, user⟩ | ⟨id, user⟩
  · exact hdocument raw (fun doc ↦ .create slug doc id user attempts) fun _ hdoc ↦ hdoc
  · exact hdocument raw (fun doc ↦ .edit (.save id doc base user)) fun _ hdoc ↦ hdoc
  · exact .inr ⟨.edit (.restore id version user), fun _ _ ↦ named_of_validateStored, rfl⟩
  · exact .inr ⟨.delete id user, trivial, rfl⟩

end DocumentRequest

/-- For documents in which no text stands for a number, and the floats are `0.0` to `9.0`. -/
def plainEnv : RequestEnv where
  schema :=
    { texts :=
        { float := fun _ ↦ .error "could not convert string to float"
          int := fun _ ↦ .error "invalid literal for int() with base 10"
          uuid := fun _ ↦ .error "badly formed hexadecimal UUID string"
          ofUuid := toString
          repr := Json.typeName }
      int := fun _ ↦ none
      float := fun _ ↦ none
      frames := 1000 }
  floatLength _ := 3
  ascii := String.toList

end Superviseur
