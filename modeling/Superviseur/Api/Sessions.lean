import Mathlib.Data.Rat.Floor
import Superviseur.Api.Users
import Superviseur.Library.Trace

/-!
# Sessions

A login whose password is verified gets two tokens, kept by the browser as cookies: an access token
that lives some minutes, which every request presents, and a refresh token that lives some days,
against which a new pair is given. A token is signed; it names a user and carries the stamp of the
hash its password had. Each use of one reloads the user: the account has to be active, and the stamp
to be that of its present hash.

The server is modelled with all the requests it serves, which interleave at their waits, and with
whoever holds its tokens: a request may present any token that the server has signed, however it
came by it, or one that is signed with another key (`Known`). The users change meanwhile, by any
writes. Nothing revokes a token: `logout` only has the browser forget its cookies.

The lock of a login is read as an answer of Redis, whatever it is. Times are exact; a token keeps
whole seconds, as the library that encodes it does.
-/

namespace Superviseur.Sessions

/-- `TokenKind`. -/
inductive TokenKind where
  | access
  | refresh
  deriving DecidableEq, Repr

/-- A token: the key that signs it, and its payload. -/
structure Token where
  key : String
  sub : Uuid
  typ : TokenKind
  iat : ℤ
  exp : ℤ
  pwd : String
  deriving DecidableEq, Repr

/-- What is read of a token, beside the user and the stamp. -/
structure Claims extends TokenClaims where
  kind : TokenKind
  expiresAt : Instant

structure Settings where
  jwtSecret : Option String
  accessTokenMinutes : ℤ
  refreshTokenDays : ℤ

namespace Settings

/-- `jwt_secret`; nothing when it raises. -/
def secret (settings : Settings) : Option String :=
  settings.jwtSecret.filter fun secret ↦ 32 ≤ secret.length

/-- How long a token lives, in seconds. -/
def ttl (settings : Settings) : TokenKind → ℚ
  | .access => settings.accessTokenMinutes * 60
  | .refresh => settings.refreshTokenDays * 86400

end Settings

/-- `create_token`. -/
def createToken (secret : String) (userId : Uuid) (kind : TokenKind) (ttl : ℚ) (now : Instant)
    (stamp : String) : Token where
  key := secret
  sub := userId
  typ := kind
  iat := ⌊now⌋
  exp := ⌊now + ttl⌋
  pwd := stamp

/-- `decode_token`; nothing for `TokenError`. The library refuses a signature of another key, and a
token that is of the future or has expired. -/
def decodeToken (secret : String) (token : Option Token) (expected : TokenKind) (now : Instant) :
    Option Claims :=
  match token with
  | none => none
  | some token =>
    if token.key = secret ∧ token.iat ≤ now ∧ now < token.exp ∧ token.typ = expected then
      some { userId := token.sub, stamp := token.pwd, kind := expected, expiresAt := token.exp }
    else none

/-- What a request is answered. -/
inductive Reply where
  /-- The user it is about. -/
  | ok (user : UserRow)
  | refused (status : ℕ) (detail : String)
  /-- An exception that the handler does not catch. -/
  | failed
  deriving DecidableEq

/-- What a request waits for. -/
inductive Stage where
  /-- `login`: the time that remains of the lock. -/
  | checking (login password : String)
  /-- `login`: the row of the account. -/
  | selecting (login password : String)
  /-- `login`: the commit and the guard, once the password is verified. -/
  | granted (user : UserRow)
  /-- `login`: the guard and the commit, once it is not. -/
  | denied
  /-- `refresh`: the user of the token. -/
  | refreshing (token : Token) (claims : Claims)
  /-- A request that asks for a role, or for none: the user of the token. -/
  | authorizing (token : Token) (claims : Claims) (minimum : Option RoleName)
  /-- `_authenticate`, of a WebSocket: the user of the token. -/
  | connecting (token : Token) (claims : Claims)
  | done (reply : Reply)

/-- A WebSocket that was accepted. -/
structure Connection where
  token : Token
  claims : Claims
  closed : Bool

/-- What the server has done. -/
inductive Event where
  /-- A password was verified against the hash of the row. -/
  | verified (user : UserRow) (password : String)
  /-- A session was renewed. -/
  | renewed (user : UserRow) (token : Token)
  /-- A request was let through to its handler. -/
  | accepted (user : UserRow) (minimum : Option RoleName) (token : Token)
  | connected (user : UserRow) (token : Token)
  /-- A message was relayed over a WebSocket. -/
  | relayed (token : Token)
  deriving DecidableEq

structure Server where
  now : Instant
  db : UserDb
  requests : List Stage := []
  connections : List Connection := []
  /-- The tokens it has signed. -/
  issued : List Token := []
  /-- What it has done and when, the latest first. -/
  log : List (Instant × Event) := []

inductive Label where
  | elapses (d : ℚ)
  /-- The users change. -/
  | writes (change : UserDb → UserDb)
  | logsIn (login password : String)
  | refreshes (cookie : Option Token)
  /-- A request whose handler asks for this role. -/
  | asks (cookie : Option Token) (minimum : Option RoleName)
  | connects (cookie : Option Token)
  /-- Redis answers request `i` whether its login is locked. -/
  | checked (i : ℕ) (locked : Bool)
  /-- What request `i` waits for has come. -/
  | resumed (i : ℕ)
  /-- What request `i` waits for raises. -/
  | raises (i : ℕ)
  /-- Redis gives a message to connection `i`. -/
  | pumped (i : ℕ)

/-- The texts of the refusals. -/
def invalidCredentials : String := "identifiants invalides"

def lockedText : String :=
  "compte temporairement verrouillé : trop de tentatives, réessayez plus tard"

namespace Server

variable (settings : Settings) (verify : String → String → Bool) (passwordStamp : String → String)

/-- Request `i` moves on. -/
def goes (s : Server) (i : ℕ) (stage : Stage) : Server :=
  { s with requests := s.requests.set i stage }

def arrives (s : Server) (stage : Stage) : Server :=
  { s with requests := s.requests ++ [stage] }

def records (s : Server) (event : Event) : Server :=
  { s with log := (s.now, event) :: s.log }

/-- `_set_cookies`; nothing when there is no secret to sign with. -/
def setCookies (s : Server) (userId : Uuid) (stamp : String) : Option Server :=
  settings.secret.map fun secret ↦
    { s with issued := s.issued ++ ([.access, .refresh] : List TokenKind).map fun kind ↦
        createToken secret userId kind (settings.ttl kind) s.now stamp }

/-- The request of a cookie arrives. The secret is looked at first, and the token before the
first wait. -/
def presents (s : Server) (cookie : Option Token) (kind : TokenKind) (detail : String)
    (stage : Token → Claims → Stage) : Server :=
  match settings.secret with
  | none => s.arrives (.done .failed)
  | some secret =>
    match cookie, decodeToken secret cookie kind s.now with
    | some token, some claims => s.arrives (stage token claims)
    | _, _ => s.arrives (.done (.refused 401 detail))

/-- `login`, once the account is read. A password that fails, or an account that is not there or not
active, is counted by the guard. -/
def selected (s : Server) (i : ℕ) (login password : String) : Server :=
  match s.db.users.find? fun row ↦ row.login = login with
  | some row =>
    if row.active && verify row.passwordHash password then
      (s.goes i (.granted row)).records (.verified row password)
    else s.goes i .denied
  | none => s.goes i .denied

/-- `login`, once the guard has forgotten the failures. -/
def logged (s : Server) (i : ℕ) (user : UserRow) : Server :=
  match s.setCookies settings user.id (passwordStamp user.passwordHash) with
  | some s' => s'.goes i (.done (.ok user))
  | none => s.goes i (.done .failed)

/-- `refresh`, once the user is loaded. -/
def refreshed (s : Server) (i : ℕ) (token : Token) (claims : Claims) : Server :=
  match loadUser passwordStamp claims.toTokenClaims s.db with
  | none => s.goes i (.done (.refused 401 "session expirée"))
  | some user =>
    match s.setCookies settings user.id (passwordStamp user.passwordHash) with
    | some s' => (s'.goes i (.done (.ok user))).records (.renewed user token)
    | none => s.goes i (.done .failed)

/-- `current_user`, once the user is loaded, and `require_role`. -/
def authorized (s : Server) (i : ℕ) (token : Token) (claims : Claims) (minimum : Option RoleName) :
    Server :=
  match loadUser passwordStamp claims.toTokenClaims s.db with
  | none => s.goes i (.done (.refused 401 "authentification requise"))
  | some user =>
    if minimum.all (hasRole user.role) then
      (s.goes i (.done (.ok user))).records (.accepted user minimum token)
    else s.goes i (.done (.refused 403 "droits insuffisants"))

/-- `realtime`, once the user is loaded. -/
def accepted (s : Server) (i : ℕ) (token : Token) (claims : Claims) : Server :=
  match loadUser passwordStamp claims.toTokenClaims s.db with
  | none => s.goes i (.done (.refused 4401 ""))
  | some user =>
    { (s.goes i (.done (.ok user))).records (.connected user token) with
      connections := s.connections ++ [{ token, claims, closed := false }] }

/-- Request `i` is resumed. -/
def resumed (s : Server) (i : ℕ) : Option Server :=
  match s.requests[i]? with
  | some (.selecting login password) => some (s.selected verify i login password)
  | some (.granted user) => some (s.logged settings passwordStamp i user)
  | some .denied => some (s.goes i (.done (.refused 401 invalidCredentials)))
  | some (.refreshing token claims) => some (s.refreshed settings passwordStamp i token claims)
  | some (.authorizing token claims minimum) =>
    some (s.authorized passwordStamp i token claims minimum)
  | some (.connecting token claims) => some (s.accepted passwordStamp i token claims)
  | some (.checking ..) | some (.done _) | none => none

/-- `_pump`: the expiry is looked at once the message is there, before it is sent. -/
def pumped (s : Server) (i : ℕ) : Option Server :=
  match s.connections[i]? with
  | some connection =>
    if connection.closed then none
    else if connection.claims.expiresAt ≤ s.now then
      some { s with connections := s.connections.set i { connection with closed := true } }
    else some (s.records (.relayed connection.token))
  | none => none

def next (s : Server) : Label → Option Server
  | .elapses d => if 0 ≤ d then some { s with now := s.now + d } else none
  | .writes change => some { s with db := change s.db }
  | .logsIn login password => some (s.arrives (.checking login password))
  | .refreshes cookie => some (s.presents settings cookie .refresh "session expirée" .refreshing)
  | .asks cookie minimum =>
    some (s.presents settings cookie .access "authentification requise"
      fun token claims ↦ .authorizing token claims minimum)
  | .connects cookie => some (s.presents settings cookie .access "" .connecting)
  | .checked i locked =>
    match s.requests[i]? with
    | some (.checking login password) =>
      some (s.goes i (if locked then .done (.refused 429 lockedText)
        else .selecting login password))
    | _ => none
  | .resumed i => s.resumed settings verify passwordStamp i
  | .raises i =>
    match s.requests[i]? with
    | some (.done _) | none => none
    | some _ => some (s.goes i (.done .failed))
  | .pumped i => s.pumped i

end Server

/-- The token a request presents. -/
def Label.cookie : Label → Option Token
  | .refreshes cookie | .asks cookie _ | .connects cookie => cookie
  | .elapses _ | .writes _ | .logsIn .. | .checked .. | .resumed _ | .raises _ | .pumped _ => none

/-- Nobody but the server signs with its key. -/
def Known (settings : Settings) (s : Server) (label : Label) : Prop :=
  ∀ token, label.cookie = some token → settings.secret = some token.key → token ∈ s.issued

end Superviseur.Sessions
