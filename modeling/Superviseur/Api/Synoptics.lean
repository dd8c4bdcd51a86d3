import Superviseur.Common.Models
import Superviseur.Library.Json
import Superviseur.Library.ReadCommitted
import Mathlib.Data.List.MinMax

/-!
# Saving synoptics

Saving a synoptic adds a version to it, numbered after the highest one; restoring copies an old
version into a new one. A request is one transaction, whose statements are those the ORM emits: an
attribute that was assigned another value is written before the next query.

The documents are validated before the first statement, or after the query that reads them, by
`validate`, which knows nothing of the database.
-/

namespace Superviseur

/-- A validated document. -/
structure SynopticDoc where
  name : String
  /-- `to_json`. -/
  content : Json
  /-- Number of widgets. -/
  widgets : ℕ

structure SynopticRow where
  id : Uuid
  name : String
  slug : String

/-- A row of `synoptic_version`. -/
structure VersionRow where
  synopticId : Uuid
  version : ℕ
  content : Json
  createdBy : Option Uuid

/-- A row of the audit log, as a save or a restore records it. -/
structure SynopticAudit where
  userId : Uuid
  action : String
  target : String
  before : List (String × Option ℕ)
  after : List (String × ℕ)

structure SynopticDb where
  synoptics : List SynopticRow
  versions : List VersionRow
  audits : List SynopticAudit

namespace SynopticDb

def synoptic? (s : SynopticDb) (id : Uuid) : Option SynopticRow :=
  s.synoptics.find? fun row ↦ row.id = id

/-- The versions of a synoptic. -/
def versionsOf (s : SynopticDb) (id : Uuid) : List VersionRow :=
  s.versions.filter fun row ↦ row.synopticId = id

/-- `_latest`. -/
def latest (s : SynopticDb) (id : Uuid) : Option VersionRow :=
  (s.versionsOf id).argmax VersionRow.version

/-- `select(func.max(SynopticVersion.version))`. -/
def maxVersion (s : SynopticDb) (id : Uuid) : Option ℕ :=
  ((s.versionsOf id).map VersionRow.version).max?

def version? (s : SynopticDb) (id : Uuid) (version : ℕ) : Option VersionRow :=
  (s.versionsOf id).find? fun row ↦ row.version = version

/-- The key `(synoptic_id, version)` is in use. -/
def hasVersion (s : SynopticDb) (id : Uuid) (version : ℕ) : Bool :=
  s.versions.any fun row ↦ row.synopticId = id && row.version = version

end SynopticDb

/-! ## Writes -/

inductive SynopticWrite where
  /-- `UPDATE synoptic SET name`. -/
  | rename (id : Uuid) (name : String)
  | insertVersion (row : VersionRow)
  | audit (row : SynopticAudit)

namespace SynopticWrite

def apply : SynopticWrite → SynopticDb → SynopticDb
  | rename id name, s => { s with
      synoptics := s.synoptics.map fun row ↦
        if row.id = id then { row with name := name } else row }
  | insertVersion row, s => { s with versions := s.versions ++ [row] }
  | audit row, s => { s with audits := s.audits ++ [row] }

/-- The same row of `synoptic`, or the same key of `synoptic_version`. -/
def conflicts : SynopticWrite → SynopticWrite → Bool
  | rename id _, rename id' _ => id = id'
  | insertVersion row, insertVersion row' =>
    row.synopticId = row'.synopticId && row.version = row'.version
  | _, _ => false

/-- The row to update is there; the key of a version is free, and its synoptic exists. -/
def allowed : SynopticWrite → SynopticDb → Bool
  | rename id _, s => (s.synoptic? id).isSome
  | insertVersion row, s =>
    (s.synoptic? row.synopticId).isSome && !s.hasVersion row.synopticId row.version
  | audit _, _ => true

theorem conflicts_comm (w w' : SynopticWrite) : conflicts w w' = conflicts w' w := by
  cases w <;> cases w' <;> simp [conflicts, eq_comm]

end SynopticWrite

def synopticSchema : ReadCommitted.Schema SynopticDb SynopticWrite where
  apply := SynopticWrite.apply
  conflicts := SynopticWrite.conflicts
  conflicts_comm := SynopticWrite.conflicts_comm
  allowed := SynopticWrite.allowed

/-! ## Requests -/

/-- The queries; `maxVersion` comes with what the request knows by then: its synoptic, the version
it is based on, and the one its check has read. -/
inductive SynopticQuery where
  | byId
  | latest
  | version
  | maxVersion (id : Uuid) (base latest : Option ℕ)
  | refresh

/-- The outcome of a request; a commit recalls the synoptic as it was loaded. -/
inductive SynopticOutcome where
  | refused (code : ℕ) (detail : String)
  /-- An exception the handler does not catch. -/
  | failed
  | saved (loaded : SynopticRow) (base : Option ℕ) (row : VersionRow)
  | restored (loaded : SynopticRow) (version : ℕ) (row : VersionRow)

abbrev SynopticProg :=
  ReadCommitted.Prog SynopticQuery SynopticDb SynopticWrite SynopticOutcome

/-- `synoptic.name = name`, written with the next query if the name changes. -/
def assignName (synoptic : SynopticRow) (name : String) (k : SynopticProg) : SynopticProg :=
  if synoptic.name = name then k else .write (.rename synoptic.id name) k .failed

/-- `_add_version`. -/
def addVersion (query : SynopticQuery) (id : Uuid) (doc : SynopticDoc) (user : Uuid)
    (k : VersionRow → SynopticProg) (refused : SynopticOutcome) : SynopticProg :=
  .read query fun s ↦
    let row := ⟨id, (s.maxVersion id).getD 0 + 1, doc.content, some user⟩
    .write (.insertVersion row) (.read .refresh fun _ ↦ k row) refused

/-- The version that makes the base of a save obsolete. -/
def obsoleteBase (base : Option ℕ) (latest : Option VersionRow) : Option ℕ :=
  match base, latest with
  | some b, some l => if l.version = b then none else some l.version
  | _, _ => none

/-- `save_synoptic`, once the document is validated. -/
def saveSynoptic (id : Uuid) (doc : SynopticDoc) (base : Option ℕ) (user : Uuid) : SynopticProg :=
  .read .byId fun s ↦
    match s.synoptic? id with
    | none => .rollback (.refused 404 "synoptique introuvable")
    | some synoptic =>
      .read .latest fun s ↦
        let latest := (s.latest id).map VersionRow.version
        match obsoleteBase base (s.latest id) with
        | some v => .rollback (.refused 409
            s!"enregistré entre-temps (version {v}) : rechargez avant d'enregistrer")
        | none =>
          assignName synoptic doc.name <|
            addVersion (.maxVersion id base latest) id doc user (fun row ↦
              .write (.audit ⟨user, "synoptic.save", synoptic.slug, [("version", latest)],
                [("version", row.version), ("widgets", doc.widgets)]⟩)
                (.commit (.saved synoptic base row)) .failed)
              (.refused 409 "enregistrement simultané : réessayez")

/-- `restore_version`. -/
def restoreVersion (validate : Json → Except SynopticOutcome SynopticDoc) (id : Uuid)
    (version : ℕ) (user : Uuid) : SynopticProg :=
  .read .byId fun s ↦
    match s.synoptic? id with
    | none => .rollback (.refused 404 "synoptique introuvable")
    | some synoptic =>
      .read .version fun s ↦
        match s.version? id version with
        | none => .rollback (.refused 404 "version introuvable")
        | some old =>
          match validate old.content with
          | .error outcome => .rollback outcome
          | .ok doc =>
            assignName synoptic doc.name <|
              addVersion (.maxVersion id none none) id doc user (fun row ↦
                .write (.audit ⟨user, "synoptic.restore", synoptic.slug,
                  [("restored_version", some version)], [("version", row.version)]⟩)
                  (.commit (.restored synoptic version row)) .failed)
                .failed

inductive SynopticRequest where
  | save (id : Uuid) (doc : SynopticDoc) (base : Option ℕ) (user : Uuid)
  | restore (id : Uuid) (version : ℕ) (user : Uuid)

/-- The transaction of a request. -/
def SynopticRequest.program (validate : Json → Except SynopticOutcome SynopticDoc) :
    SynopticRequest → SynopticProg
  | save id doc base user => saveSynoptic id doc base user
  | restore id version user => restoreVersion validate id version user

end Superviseur
