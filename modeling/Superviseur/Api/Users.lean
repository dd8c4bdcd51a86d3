import Superviseur.Common.Models
import Superviseur.Library.ReadCommitted

/-!
# Managing users

An administrator changes the role, the state or the password of a user, or deletes it. A request is
one transaction: it reloads its author, then the user, counts the other active administrators where
the user is to stop being one, and writes at the end. The ORM updates the columns that changed since
the user was loaded, and no others. The entry of the audit log refers to the author, who therefore
cannot be deleted meanwhile.
-/

namespace Superviseur

/-- A row of `user`, with the name of its role. -/
structure UserRow where
  id : Uuid
  login : String
  role : RoleName
  active : Bool
  passwordHash : String
  deriving DecidableEq

/-- A row of the audit log, as these requests record it. -/
structure UserAudit where
  /-- The author; null once deleted. -/
  userId : Option Uuid
  action : String
  target : String
  before : RoleName × Bool
  after : Option (RoleName × Bool)
  passwordChanged : Bool

structure UserDb where
  users : List UserRow
  roles : List RoleName
  audits : List UserAudit

def UserRow.isActiveAdmin (row : UserRow) : Bool := row.role = .admin && row.active

namespace UserDb

def user? (s : UserDb) (id : Uuid) : Option UserRow := s.users.find? fun row ↦ row.id = id

/-- `_other_active_admins`. -/
def otherActiveAdmins (s : UserDb) (id : Uuid) : ℕ :=
  s.users.countP fun row ↦ row.isActiveAdmin && row.id ≠ id

/-- At least one user is an active administrator. -/
def HasAdmin (s : UserDb) : Prop := ∃ row ∈ s.users, row.isActiveAdmin = true

end UserDb

/-! ## Writes -/

inductive UserWrite where
  /-- `UPDATE user`, of the columns given. -/
  | update (id : Uuid) (role : Option RoleName) (active : Option Bool)
      (passwordHash : Option String)
  | delete (id : Uuid)
  | audit (row : UserAudit)

namespace UserWrite

/-- The columns given replace those of the row. -/
def set (role : Option RoleName) (active : Option Bool) (passwordHash : Option String)
    (row : UserRow) : UserRow :=
  { row with
    role := role.getD row.role
    active := active.getD row.active
    passwordHash := passwordHash.getD row.passwordHash }

def apply : UserWrite → UserDb → UserDb
  | update id role active passwordHash, s => { s with
      users := s.users.map fun row ↦ if row.id = id then set role active passwordHash row else row }
  | delete id, s => { s with
      users := s.users.filter fun row ↦ row.id ≠ id
      audits := s.audits.map fun row ↦
        if row.userId = some id then { row with userId := none } else row }
  | audit row, s => { s with audits := s.audits ++ [row] }

/-- The same row of `user`; an entry of the audit log holds its author against deletion. -/
def conflicts : UserWrite → UserWrite → Bool
  | update id _ _ _, update id' _ _ _ => id = id'
  | update id _ _ _, delete id' => id = id'
  | delete id, update id' _ _ _ => id = id'
  | delete id, delete id' => id = id'
  | delete id, audit row => row.userId = some id
  | audit row, delete id => row.userId = some id
  | _, _ => false

/-- The row to update is there; the author of an entry exists. -/
def allowed : UserWrite → UserDb → Bool
  | update id _ _ _, s => (s.user? id).isSome
  | delete _, _ => true
  | audit row, s => row.userId.all fun id ↦ (s.user? id).isSome

theorem conflicts_comm (w w' : UserWrite) : conflicts w w' = conflicts w' w := by
  cases w <;> cases w' <;> simp [conflicts, eq_comm]

end UserWrite

def userSchema : ReadCommitted.Schema UserDb UserWrite where
  apply := UserWrite.apply
  conflicts := UserWrite.conflicts
  conflicts_comm := UserWrite.conflicts_comm
  allowed := UserWrite.allowed

/-! ## Requests -/

/-- `ROLE_LEVEL`. -/
def RoleName.level : RoleName → ℕ
  | viewer => 1
  | operator => 2
  | engineer => 3
  | admin => 4

def hasRole (role minimum : RoleName) : Bool := minimum.level ≤ role.level

/-- What a token says. -/
structure TokenClaims where
  userId : Uuid
  stamp : String

/-- The body of `PATCH /users/{user_id}`; a password is given as the hash it gets. -/
structure UserUpdate where
  role : Option RoleName
  active : Option Bool
  password : Option String

inductive UserQuery where
  | currentUser
  | get
  | otherActiveAdmins
  | roleIds

/-- The outcome of a request; a commit recalls the user as it was loaded, and the other active
administrators, where they were counted. -/
inductive UserOutcome where
  | refused (code : ℕ) (detail : String)
  /-- An exception the handler does not catch. -/
  | failed
  | updated (loaded : UserRow) (counted : Option ℕ)
  | deleted (loaded : UserRow) (counted : Option ℕ)

abbrev UserProg := ReadCommitted.Prog UserQuery UserDb UserWrite UserOutcome

/-- `load_user`, for a token. -/
def loadUser (passwordStamp : String → String) (claims : TokenClaims) (s : UserDb) :
    Option UserRow :=
  match s.users.find? fun row ↦ row.id = claims.userId && row.active with
  | none => none
  | some row => if claims.stamp = passwordStamp row.passwordHash then some row else none

/-- The dependencies of the routes: the author of the request, who must be an administrator. -/
def asAdmin (passwordStamp : String → String) (claims : TokenClaims) (k : UserRow → UserProg) :
    UserProg :=
  .read .currentUser fun s ↦
    match loadUser passwordStamp claims s with
    | none => .rollback (.refused 401 "authentification requise")
    | some admin =>
      if hasRole admin.role .admin then k admin else .rollback (.refused 403 "droits insuffisants")

/-- `_get`, and the 404 where there is no such user. -/
def getUser (id : Uuid) (k : UserRow → UserProg) : UserProg :=
  .read .get fun s ↦
    match s.user? id with
    | none => .rollback (.refused 404 "utilisateur introuvable")
    | some user => k user

/-- The guard of the last administrator. -/
def keepAdmin (id : Uuid) (k : ℕ → UserProg) : UserProg :=
  .read .otherActiveAdmins fun s ↦
    if s.otherActiveAdmins id = 0 then
      .rollback (.refused 409 "il doit rester un administrateur actif")
    else k (s.otherActiveAdmins id)

/-- The role of the body has to be one of the table. -/
def checkRole (role : Option RoleName) (k : UserProg) : UserProg :=
  match role with
  | none => k
  | some role => .read .roleIds fun s ↦
      if role ∈ s.roles then k else .rollback (.refused 422 "rôle inconnu")

/-- What an attribute is written as: nothing if it has not changed. -/
def changed {α : Type} [DecidableEq α] (given : Option α) (loaded : α) : Option α :=
  given.filter fun x ↦ x ≠ loaded

/-- The flush of the changes, if any, and the commit. -/
def storeUser (admin user : UserRow) (body : UserUpdate) (counted : Option ℕ) : UserProg :=
  let role := changed body.role user.role
  let active := changed body.active user.active
  let record : UserProg :=
    .write (.audit ⟨some admin.id, "user.update", user.login, (user.role, user.active),
      some (body.role.getD user.role, body.active.getD user.active), body.password.isSome⟩)
      (.commit (.updated user counted)) .failed
  if role.isNone && active.isNone && body.password.isNone then record
  else .write (.update user.id role active body.password) record .failed

/-- The user is an active administrator, and would not be one any more. -/
def losesAdmin (user : UserRow) (body : UserUpdate) : Bool :=
  user.isActiveAdmin &&
    (body.role.getD user.role ≠ .admin || !body.active.getD user.active)

/-- `update_user`. -/
def updateUser (passwordStamp : String → String) (claims : TokenClaims) (id : Uuid)
    (body : UserUpdate) : UserProg :=
  asAdmin passwordStamp claims fun admin ↦ getUser id fun user ↦
    let store (counted : Option ℕ) : UserProg :=
      if user.id = admin.id ∧ body.active.getD user.active = false then
        .rollback (.refused 409 "vous ne pouvez pas désactiver votre compte")
      else checkRole body.role (storeUser admin user body counted)
    if losesAdmin user body then
      if user.id = admin.id then
        .rollback (.refused 409 "vous ne pouvez pas retirer vos propres droits d'administrateur")
      else keepAdmin user.id fun n ↦ store (some n)
    else store none

/-- `delete_user`. -/
def deleteUser (passwordStamp : String → String) (claims : TokenClaims) (id : Uuid) : UserProg :=
  asAdmin passwordStamp claims fun admin ↦ getUser id fun user ↦
    let store (counted : Option ℕ) : UserProg :=
      .write (.audit ⟨some admin.id, "user.delete", user.login, (user.role, user.active), none,
          false⟩)
        (.write (.delete user.id) (.commit (.deleted user counted)) .failed) .failed
    if user.id = admin.id then
      .rollback (.refused 409 "vous ne pouvez pas supprimer votre compte")
    else if user.isActiveAdmin then keepAdmin user.id fun n ↦ store (some n)
    else store none

inductive UserRequest where
  | update (claims : TokenClaims) (id : Uuid) (body : UserUpdate)
  | delete (claims : TokenClaims) (id : Uuid)

/-- The transaction of a request. -/
def UserRequest.program (passwordStamp : String → String) : UserRequest → UserProg
  | update claims id body => updateUser passwordStamp claims id body
  | delete claims id => deleteUser passwordStamp claims id

end Superviseur
