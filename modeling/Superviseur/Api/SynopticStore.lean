import Superviseur.Api.SynopticDoc
import Superviseur.Api.Synoptics
import Mathlib.Data.List.DropRight

/-!
# Creating and deleting synoptics

A synoptic is created with its version 1, under a slug that is given or derived from its name, and
deleted with all its versions. These requests work on the same database as the saves, whose
transactions are taken over unchanged.
-/

namespace Superviseur

open ReadCommitted

/-! ## Slugs -/

/-- `is_valid_slug`. -/
def isValidSlug (slug : String) : Bool :=
  isSlug (dropLineBreak slug.toList) && slug.toList.length ≤ 64

/-- `re.sub(r"[^a-z0-9]+", "-", text)`; `within` tells that the character before is replaced. -/
def hyphenate (within : Bool) : List Char → List Char
  | [] => []
  | c :: cs =>
    if isLower c || isDigit c then c :: hyphenate false cs
    else if within then hyphenate true cs
    else '-' :: hyphenate true cs

/-- `text.strip("-")`. -/
def stripHyphens (cs : List Char) : List Char :=
  (cs.dropWhile (· == '-')).rdropWhile (· == '-')

/-- `slugify`; `ascii` is the NFKD form of a text without what is not ASCII. -/
def slugify (ascii : String → List Char) (name : String) : String :=
  let slug := stripHyphens (hyphenate false ((ascii name).map Char.toLower))
  let slug := stripHyphens (slug.take 64)
  if slug.isEmpty then "synoptique" else String.ofList slug

/-- `f"{base[:60]}-{suffix}"`. -/
def numberedSlug (base : String) (suffix : ℕ) : String :=
  let start := String.ofList (base.toList.take 60)
  s!"{start}-{suffix}"

/-! ## The store -/

/-- The name inside the content. -/
def VersionRow.name (row : VersionRow) : Json :=
  match row.content with
  | .obj fields => Dict.get fields "name"
  | _ => .null

/-- The name of the document is inside its content. -/
def SynopticDoc.Named (doc : SynopticDoc) : Prop :=
  ∀ row : VersionRow, row.content = doc.content → row.name = .str doc.name

/-- The synoptic of the version has the name that is inside it. -/
def SynopticDb.NamedBy (s : SynopticDb) (row : VersionRow) : Prop :=
  ∀ synoptic ∈ s.synoptics, synoptic.id = row.synopticId → row.name.isText synoptic.name = true

/-- Where the version has the name that was loaded, the synoptic still has it. -/
def SynopticDb.NameAsLoaded (s : SynopticDb) (loaded : SynopticRow) (row : VersionRow) : Prop :=
  row.name.isText loaded.name = true →
    ∀ synoptic ∈ s.synoptics, synoptic.id = row.synopticId → synoptic.name = loaded.name

instance (s : SynopticDb) (loaded : SynopticRow) (row : VersionRow) :
    Decidable (s.NameAsLoaded loaded row) :=
  inferInstanceAs (Decidable (_ = true → ∀ synoptic ∈ s.synoptics, _ → _))

/-- The database, and the identifiers that its synoptics have had since the beginning: these are
nowhere written down. -/
structure SynopticStore where
  db : SynopticDb
  issued : List Uuid

/-- The write locks the row of the synoptic, or refers to it. -/
def SynopticWrite.concerns (id : Uuid) : SynopticWrite → Bool
  | rename id' _ => id' = id
  | insertVersion row => row.synopticId = id
  | audit _ => false

namespace SynopticStore

def ids (s : SynopticStore) : List Uuid := s.db.synoptics.map SynopticRow.id

def hasSlug (s : SynopticStore) (slug : String) : Bool :=
  s.db.synoptics.any fun row ↦ row.slug = slug

inductive Write where
  | edit (w : SynopticWrite)
  | insertSynoptic (row : SynopticRow)
  /-- `DELETE FROM synoptic_version WHERE synoptic_id = id`. -/
  | deleteVersions (id : Uuid)
  /-- `DELETE FROM synoptic`, with the cascade to the versions committed meanwhile. -/
  | deleteSynoptic (row : SynopticRow)

namespace Write

def apply : Write → SynopticStore → SynopticStore
  | edit w, s => { s with db := w.apply s.db }
  | insertSynoptic row, s =>
    { db := { s.db with synoptics := s.db.synoptics ++ [row] }
      issued := s.issued ++ [row.id] }
  | deleteVersions id, s => { s with
      db := { s.db with versions := s.db.versions.filter fun row ↦ row.synopticId ≠ id } }
  | deleteSynoptic synoptic, s => { s with
      db := { s.db with
        synoptics := s.db.synoptics.filter fun row ↦ row.id ≠ synoptic.id
        versions := s.db.versions.filter fun row ↦ row.synopticId ≠ synoptic.id } }

/-- The same row, the same key, or a row and a reference to it. -/
def conflicts : Write → Write → Bool
  | edit w, edit w' => w.conflicts w'
  | edit w, deleteSynoptic row => w.concerns row.id
  | deleteSynoptic row, edit w => w.concerns row.id
  | insertSynoptic row, insertSynoptic row' => row.id = row'.id || row.slug = row'.slug
  | insertSynoptic row, deleteSynoptic row' => row.id = row'.id || row.slug = row'.slug
  | deleteSynoptic row, insertSynoptic row' => row.id = row'.id || row.slug = row'.slug
  | deleteVersions id, deleteVersions id' => id = id'
  | deleteSynoptic row, deleteSynoptic row' => row.id = row'.id
  | _, _ => false

/-- The identifier and the slug of a synoptic are unique. -/
def allowed : Write → SynopticStore → Bool
  | edit w, s => w.allowed s.db
  | insertSynoptic row, s => s.db.synoptics.all fun row' ↦ row'.id ≠ row.id && row'.slug ≠ row.slug
  | deleteVersions _, _ => true
  | deleteSynoptic _, _ => true

theorem conflicts_comm (w w' : Write) : conflicts w w' = conflicts w' w := by
  cases w <;> cases w' <;> simp [conflicts, SynopticWrite.conflicts_comm, eq_comm]

end Write

def schema : Schema SynopticStore Write where
  apply := Write.apply
  conflicts := Write.conflicts
  conflicts_comm := Write.conflicts_comm
  allowed := Write.allowed

/-! ## Requests -/

inductive Query where
  | edit (query : SynopticQuery)
  | slug
  | maxVersion

inductive Outcome where
  | edited (outcome : SynopticOutcome)
  | created (synoptic : SynopticRow) (row : VersionRow)
  | deleted (id : Uuid)

/-- The answer is an error. -/
def Outcome.isError : Outcome → Bool
  | edited (.refused _ _) | edited .failed => true
  | edited (.saved _ _ _) | edited (.restored _ _ _) | created _ _ | deleted _ => false

abbrev Program := Prog Query SynopticStore Write Outcome

/-- A save or a restore, in the store. -/
def inStore (p : SynopticProg) : Program :=
  p.map Query.edit SynopticStore.db Write.edit Outcome.edited

/-- `_add_version`, among the statements of a creation. -/
def insertVersion (query : Query) (id : Uuid) (doc : SynopticDoc) (user : Uuid)
    (k : VersionRow → Program) (refused : Outcome) : Program :=
  .read query fun s ↦
    let row := ⟨id, (s.db.maxVersion id).getD 0 + 1, doc.content, some user⟩
    .write (.edit (.insertVersion row)) (.read (.edit .refresh) fun _ ↦ k row) refused

theorem inStore_addVersion (query : SynopticQuery) (id : Uuid) (doc : SynopticDoc) (user : Uuid)
    (k : VersionRow → SynopticProg) (refused : SynopticOutcome) :
    inStore (addVersion query id doc user k refused) =
      insertVersion (.edit query) id doc user (fun row ↦ inStore (k row)) (.edited refused) := rfl

/-- The search for a slug that no synoptic has: `n` queries at most, the first for `slug`. -/
def freeSlug (base : String) (k : String → Program) : ℕ → String → ℕ → Program
  | 0, _, _ => .rollback (.edited .failed)
  | n + 1, slug, suffix => .read .slug fun s ↦
    if s.hasSlug slug then freeSlug base k n (numberedSlug base (suffix + 1)) (suffix + 1)
    else k slug

/-- `create_synoptic`, from the insertion on. -/
def insertSynoptic (row : SynopticRow) (doc : SynopticDoc) (user : Uuid) : Program :=
  let slug := row.slug
  .write (.insertSynoptic row)
    (insertVersion .maxVersion row.id doc user (fun version ↦
      .write (.edit (.audit ⟨user, "synoptic.create", slug, [],
        [("version", version.version), ("widgets", doc.widgets)]⟩))
        (.commit (.created row version)) (.edited .failed))
      (.edited .failed))
    (.edited (.refused 409 s!"le slug « {slug} » existe déjà"))

/-- `create_synoptic`, once the document is validated; `id` is what `uuid4` gives, and `attempts`
bounds the search for a slug. -/
def createSynoptic (ascii : String → List Char) (given : Option String) (doc : SynopticDoc)
    (id user : Uuid) (attempts : ℕ) : Program :=
  let slug := match given with
    | some slug => if slug.isEmpty then slugify ascii doc.name else slug
    | none => slugify ascii doc.name
  if isValidSlug slug then
    match given with
    | some _ => insertSynoptic ⟨id, doc.name, slug⟩ doc user
    | none =>
      freeSlug slug (fun slug ↦ insertSynoptic ⟨id, doc.name, slug⟩ doc user) attempts slug 1
  else .rollback (.edited (.refused 422 "slug : minuscules, chiffres et tirets"))

/-- `delete_synoptic`. -/
def deleteSynoptic (id user : Uuid) : Program :=
  .read (.edit .byId) fun s ↦
    match s.db.synoptic? id with
    | none => .rollback (.edited (.refused 404 "synoptique introuvable"))
    | some synoptic =>
      .read (.edit .latest) fun s ↦
        .write (.edit (.audit ⟨user, "synoptic.delete", synoptic.slug,
          [("version", (s.db.latest id).map VersionRow.version)], []⟩))
          (.write (.deleteVersions id)
            (.write (.deleteSynoptic synoptic) (.commit (.deleted synoptic.id)) (.edited .failed))
            (.edited .failed))
          (.edited .failed)

inductive Request where
  | create (given : Option String) (doc : SynopticDoc) (id user : Uuid) (attempts : ℕ)
  | edit (request : SynopticRequest)
  | delete (id user : Uuid)

/-- The transaction of a request. -/
def Request.program (validate : Json → Except SynopticOutcome SynopticDoc)
    (ascii : String → List Char) : Request → Program
  | create given doc id user attempts => createSynoptic ascii given doc id user attempts
  | edit request => inStore (request.program validate)
  | delete id user => deleteSynoptic id user

/-- The documents of a request, and those it restores, have their name inside. -/
def Request.Named (validate : Json → Except SynopticOutcome SynopticDoc) : Request → Prop
  | create _ doc _ _ _ | edit (.save _ doc _ _) => doc.Named
  | edit (.restore _ _ _) => ∀ content doc, validate content = .ok doc → doc.Named
  | delete _ _ => True

/-- `uuid4` never gives an identifier twice. -/
def freshIds : Conditions Query SynopticStore Outcome where
  read _ _ := True
  commit
    | .created synoptic _, s => synoptic.id ∉ s.issued
    | _, _ => True

instance (query : Query) (s : SynopticStore) : Decidable (freshIds.read query s) :=
  .isTrue trivial

instance (r : Outcome) (s : SynopticStore) : Decidable (freshIds.commit r s) :=
  match r with
  | .created synoptic _ => inferInstanceAs (Decidable (synoptic.id ∉ s.issued))
  | .edited _ | .deleted _ => .isTrue trivial

end SynopticStore

end Superviseur
