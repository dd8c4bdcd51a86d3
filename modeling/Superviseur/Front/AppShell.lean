import Superviseur.Front.Routes
import Superviseur.Library.Trace

/-!
# The shell of the application

`mountApp` shows the page of the address. A change of the address is notified by a `hashchange`,
later; several may be on their way. The notification calls `show`, which first asks for the session
when it does not know the user, then may load a synoptic, and mounts the page. Other calls of `show`
may start meanwhile: each has a number, and gives up when it finds that it is not the latest.

Where a call waits, it is a run in the state below, at the stage it waits at. The address may be
changed at any time by the user and by the links and buttons of the pages; the shell changes it too,
sometimes without wanting the page to be shown again: it then notes the address as silent, and the
next notification is dropped if the address is still that one.

The pages are recorded when they are mounted and when they are destroyed, the editors when their
`onSaved` sets the address. What the pages show inside is not modelled.
-/

namespace Superviseur

/-- The members of a `SynopticRecord` that the shell reads. -/
structure SynopticRecord where
  slug : String
  name : String
  deriving DecidableEq

structure SessionUser where
  id : String
  login : String
  role : String
  deriving DecidableEq

/-- `ENGINEER_ROLES`. -/
def engineerRoles : List String := ["engineer", "admin"]

/-- `ADMIN_ROLE`. -/
def adminRole : String := "admin"

def SessionUser.canEdit (user : SessionUser) : Bool := decide (user.role ∈ engineerRoles)

namespace AppShell

/-! ## Pages -/

/-- What is shown under the bar, with what it is given. A page for a synoptic has the slug it was
asked for. -/
inductive Page
  | login
  | unreachable
  | admin (user : SessionUser)
  | adminDenied (user : SessionUser)
  | list (user : SessionUser)
  | viewer (slug : String) (record : SynopticRecord) (canEdit : Bool) (user : SessionUser)
  | editor (slug : Option String) (record : Option SynopticRecord) (role : String)
  | editDenied (slug : Option String) (user : Option SessionUser)
  | notFound (slug : Option String) (missing : Bool) (user : Option SessionUser)
  /-- What is left when `mountViewer` or `mountEditor` is to be called without a user. -/
  | bare
  deriving DecidableEq

/-- The title in the bar of the page. -/
def Page.title : Page → Option String
  | admin _ | adminDenied _ => some "Administration"
  | list _ => some "Superviseur"
  | viewer _ record _ _ => some record.name
  | editDenied _ _ => some "Accès refusé"
  | notFound _ _ _ => some "Synoptique introuvable"
  | login | unreachable | editor _ _ _ | bare => none

/-- The note of a page that is nothing more. -/
def Page.note : Page → Option String
  | unreachable => some "Le serveur est injoignable. Réessayez dans un instant."
  | adminDenied _ => some "L’administration est réservée aux administrateurs."
  | editDenied _ _ => some "La modification des synoptiques est réservée aux ingénieurs."
  | notFound _ missing _ =>
    some (if missing then "Ce synoptique n’existe pas." else "Chargement impossible.")
  | login | admin _ | list _ | viewer _ _ _ _ | editor _ _ _ | bare => none

/-- The page has an instance, which is to be destroyed. -/
def Page.hasInstance : Page → Bool
  | login | admin _ | list _ | viewer _ _ _ _ | editor _ _ _ => true
  | unreachable | adminDenied _ | editDenied _ _ | notFound _ _ _ | bare => false

/-- The page of a route that asks for no synoptic, for a user. -/
def pageOf (user : SessionUser) : Route → Option Page
  | .login => none
  | .admin => some (if user.role ≠ adminRole then .adminDenied user else .admin user)
  | .list => some (.list user)
  | .view _ | .edit (some _) => none
  | .edit none =>
    some (if user.canEdit then .editor none none user.role else .editDenied none (some user))

/-- What `synoptic` answers. -/
inductive LoadAnswer
  | record (record : SynopticRecord)
  /-- It fails, because there is no such synoptic or otherwise. -/
  | failed (missing : Bool)

/-- The page of a route that asks for a synoptic, once this is answered. Whether the user could edit
was read before, the user is read now. -/
def loadedPage (route : Route) (canEdit : Bool) (user : Option SessionUser) : LoadAnswer → Page
  | .failed missing => .notFound route.slug? missing user
  | .record record =>
    match route with
    | .view slug =>
      match user with
      | some user => .viewer slug record canEdit user
      | none => .bare
    | .edit slug =>
      if !canEdit then .editDenied slug user
      else
        match user with
        | some user => .editor slug (some record) user.role
        | none => .bare
    | _ => .bare

end AppShell

open AppShell (Page LoadAnswer pageOf loadedPage)

/-! ## State -/

namespace AppShell

/-- How `ensureSession` ends: with a user, without one, or by throwing. -/
inductive Verdict
  | signedIn
  | signedOut
  | failed
  deriving DecidableEq

/-- What a call of `show` waits for. -/
inductive Stage
  /-- The answer of `me`. -/
  | checking
  /-- To go on after `ensureSession`. -/
  | checked (verdict : Verdict)
  /-- The answer of `synoptic`. -/
  | loading (canEdit : Bool)
  | ended
  deriving DecidableEq

/-- A call of `show`. -/
structure Run where
  route : Route
  stage : Stage

/-- What `me` answers: a user, 401 or no answer at all, or another error. -/
inductive MeAnswer
  | user (user : SessionUser)
  | refused
  | failed

end AppShell

structure AppShell where
  hash : String
  /-- The notifications on their way. -/
  changes : ℕ := 0
  silentHash : Option String := none
  user : Option SessionUser := none
  /-- The calls of `show`: `generation` is their number, `mine` the position of a call, from 1. -/
  runs : List AppShell.Run := []
  root : List Page := []
  /-- The instance of `current`. -/
  current : Option ℕ := none
  /-- The instances that were mounted, in this order. -/
  mounted : List Page := []
  /-- Those that were destroyed, each as often as it was. -/
  torn : List ℕ := []
  /-- The addresses that `onSaved` set, with the instance of the editor. -/
  saves : List (ℕ × String) := []
  destroyed : Bool := false

namespace AppShell

inductive Label
  /-- The user, a link or a page changes the address. -/
  | moved (hash : String)
  /-- A `hashchange` is delivered. -/
  | notified
  /-- `me` answers to a run. -/
  | answered (i : ℕ) (answer : MeAnswer)
  /-- A run goes on after `ensureSession`. -/
  | resumed (i : ℕ)
  /-- `synoptic` answers to a run. -/
  | loaded (i : ℕ) (answer : LoadAnswer)
  /-- The save of an editor is answered. -/
  | saved (id : ℕ) (record : SynopticRecord)
  /-- A login page has signed in. -/
  | loggedIn (id : ℕ)
  /-- The answer to `logout`, whatever it is. -/
  | loggedOut
  | destroy

/-! ## Operations -/

variable (s : AppShell)

/-- An assignment to `where.hash`: the browser notifies it if the address is another one. -/
def setHash (hash : String) : AppShell :=
  { s with
    hash := hash
    changes := if hash = s.hash then s.changes else s.changes + 1 }

def go (route : Route) : AppShell := s.setHash route.href

def clear : AppShell :=
  { s with
    torn := s.torn ++ s.current.toList
    current := none
    root := [] }

/-- The page is appended to the root, and mounted if it has an instance. -/
def put (page : Page) : AppShell :=
  if page.hasInstance then
    { s with
      root := s.root ++ [page]
      mounted := s.mounted ++ [page]
      current := some s.mounted.length }
  else { s with root := s.root ++ [page] }

/-- `show`, up to where it waits for the first time. -/
def «show» : AppShell :=
  if s.destroyed then s
  else
    let stage := if s.user.isSome then .checked .signedIn else .checking
    { s with runs := s.runs ++ [⟨Route.parse s.hash, stage⟩] }

/-- `mine === generation`. -/
def Latest (i : ℕ) : Prop := i + 1 = s.runs.length

instance (i : ℕ) : Decidable (s.Latest i) := inferInstanceAs (Decidable (_ = _))

def setStage (i : ℕ) (stage : Stage) : AppShell :=
  { s with runs := s.runs.modify i fun run ↦ { run with stage := stage } }

/-- The listener of `hashchange`. -/
def notified : AppShell :=
  let s := { s with changes := s.changes - 1 }
  if s.destroyed then s
  else if s.silentHash = some s.hash then { s with silentHash := none }
  else { s with silentHash := none }.show

/-- `ensureSession`, once `me` has answered. -/
def answered (i : ℕ) : MeAnswer → AppShell
  | .user user => { s with user := some user }.setStage i (.checked .signedIn)
  | .refused => s.setStage i (.checked .signedOut)
  | .failed => s.setStage i (.checked .failed)

/-- The address of the login page, set without showing it again. -/
def askLogin (route : Route) : AppShell :=
  match route with
  | .login => s
  | _ => { s with silentHash := some Route.login.href }.go .login

/-- `show`, for a user. -/
def showPage (i : ℕ) (route : Route) (user : SessionUser) : AppShell :=
  match pageOf user route with
  | some page => (s.setStage i .ended).clear.put page
  | none => s.clear.setStage i (.loading user.canEdit)

/-- `show`, after `ensureSession`. -/
def resumed (i : ℕ) (route : Route) (verdict : Verdict) : AppShell :=
  if ¬ s.Latest i then s.setStage i .ended
  else
    let cleared := (s.setStage i .ended).clear
    match verdict with
    | .failed => cleared.put .unreachable
    | .signedOut => (cleared.askLogin route).put .login
    | .signedIn =>
      match route with
      | .login => cleared.go .list
      | _ =>
        match s.user with
        -- `(user as SessionUser).role` throws
        | none => cleared
        | some user => s.showPage i route user

/-- `show`, after `synoptic`. -/
def loaded (i : ℕ) (route : Route) (canEdit : Bool) (answer : LoadAnswer) : AppShell :=
  if ¬ s.Latest i then s.setStage i .ended
  else (s.setStage i .ended).put (loadedPage route canEdit s.user answer)

/-- The address for editing a synoptic. -/
def target (record : SynopticRecord) : String := Route.href (.edit (some record.slug))

/-- `onSaved`. -/
def saved (id : ℕ) (record : SynopticRecord) : AppShell :=
  if s.hash ≠ target record then
    { { s with silentHash := some (target record) }.setHash (target record) with
      saves := s.saves ++ [(id, target record)] }
  else s

/-- `onLoggedIn`. -/
def loggedIn : AppShell := ({ s with user := none }.go .list).show

/-- The `finally` of `logout`. -/
def loggedOut : AppShell := ({ s with user := none }.go .login).show

/-- `destroy`. -/
def destroy : AppShell := { s with destroyed := true }.clear

/-- What happens, where it can. -/
def step : Label → Option AppShell
  | .moved hash => some (s.setHash hash)
  | .notified => if 0 < s.changes then some s.notified else none
  | .answered i answer =>
    match s.runs[i]? with
    | some ⟨_, .checking⟩ => some (s.answered i answer)
    | _ => none
  | .resumed i =>
    match s.runs[i]? with
    | some ⟨route, .checked verdict⟩ => some (s.resumed i route verdict)
    | _ => none
  | .loaded i answer =>
    match s.runs[i]? with
    | some ⟨route, .loading canEdit⟩ => some (s.loaded i route canEdit answer)
    | _ => none
  | .saved id record =>
    match s.mounted[id]? with
    | some (.editor _ _ _) => some (s.saved id record)
    | _ => none
  | .loggedIn id =>
    match s.mounted[id]? with
    | some .login => some s.loggedIn
    | _ => none
  | .loggedOut => some s.loggedOut
  | .destroy => some s.destroy

/-- `mountApp`, at an address. -/
def start (hash : String) : AppShell := AppShell.show { hash := hash }

end AppShell

end Superviseur
