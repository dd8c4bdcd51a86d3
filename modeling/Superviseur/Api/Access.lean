import Mathlib.Algebra.Order.Field.Rat
import Superviseur.Api.Sessions

/-!
# What gives access

Whatever is let through goes back to a password. A request accepted at some instant presented an
access token that was alive and had been given at a login or at a renewal; a renewal presented a
refresh token that was alive and had been given in the same way; at the start of the chain a
password was verified against a hash with the stamp that the hash of the user has now (`Descends`).

The other way round, a user that is deactivated, or whose password has changed, is cut off at once:
nothing is accepted any more with the stamp of before, however many tokens are still alive and
whatever requests are under way. A WebSocket that is open is not looked at again, but relays nothing
once the tokens given so far have expired. The rows that `_subscribe` sends on one are not modelled
here: they are those of `Api/Realtime`.
-/

namespace Superviseur.Sessions

variable {settings : Settings} {verify : String → String → Bool} {passwordStamp : String → String}

section

variable (settings verify passwordStamp)

/-- The session of a user, for a stamp: tokens were given at `givenAt`, at a login whose password
was verified, or against a refresh token of the same session that was alive when presented. -/
inductive Descends (log : List (Instant × Event)) : Uuid → String → Instant → Prop
  | login {user : UserRow} {password : String} {verifiedAt givenAt : Instant}
      (hlog : (verifiedAt, .verified user password) ∈ log) (hactive : user.active)
      (hverify : verify user.passwordHash password) (hgiven : verifiedAt ≤ givenAt) :
      Descends log user.id (passwordStamp user.passwordHash) givenAt
  | renewal {user : UserRow} {token : Token} {firstAt presentedAt givenAt : Instant}
      (hsession : Descends log user.id (passwordStamp user.passwordHash) firstAt)
      (hpresented : firstAt ≤ presentedAt) (halive : presentedAt < firstAt + settings.ttl .refresh)
      (hlog : (givenAt, .renewed user token) ∈ log) (hactive : user.active)
      (hgiven : presentedAt ≤ givenAt) :
      Descends log user.id (passwordStamp user.passwordHash) givenAt

/-- The token was given, and is dated from then. -/
def Given (s : Server) (token : Token) : Prop :=
  ∃ givenAt ≤ s.now, token.exp ≤ givenAt + settings.ttl token.typ ∧
    Descends settings verify passwordStamp s.log token.sub token.pwd givenAt

/-- The token was presented while it was alive, for what it is; the claims are its own. -/
structure Presented (s : Server) (kind : TokenKind) (token : Token) (claims : Claims) : Prop where
  userId : claims.userId = token.sub
  stamp : claims.stamp = token.pwd
  expiresAt : claims.expiresAt = token.exp
  descends : ∃ givenAt presentedAt : Instant, givenAt ≤ presentedAt ∧ presentedAt ≤ s.now ∧
    presentedAt < token.exp ∧ token.exp ≤ givenAt + settings.ttl kind ∧
    Descends settings verify passwordStamp s.log token.sub token.pwd givenAt

/-- What is behind each stage of a request. -/
def Backed (s : Server) : Stage → Prop
  | .granted user => ∃ verifiedAt ≤ s.now, ∃ password,
      (verifiedAt, .verified user password) ∈ s.log ∧ user.active ∧
        verify user.passwordHash password
  | .refreshing token claims => Presented settings verify passwordStamp s .refresh token claims
  | .authorizing token claims _ | .connecting token claims =>
    Presented settings verify passwordStamp s .access token claims
  | .checking .. | .selecting .. | .denied | .done _ => True

/-- What holds of the server at every moment. -/
structure Valid (s : Server) : Prop where
  issued : ∀ token ∈ s.issued, Given settings verify passwordStamp s token
  requests : ∀ stage ∈ s.requests, Backed settings verify passwordStamp s stage
  connections : ∀ connection ∈ s.connections,
    Presented settings verify passwordStamp s .access connection.token connection.claims

/-- The steps of the server. -/
abbrev Steps : Server → Label → Server → Prop :=
  Trace.Stepping (Server.next settings verify passwordStamp) (Known settings)

end

/-- Nothing has happened yet. -/
def Server.Fresh (s : Server) : Prop :=
  s.requests = [] ∧ s.connections = [] ∧ s.issued = [] ∧ s.log = []

variable {s s' : Server} {kind : TokenKind} {token : Token} {claims : Claims} {stage : Stage}
  {i : ℕ} {id : Uuid} {stamp : String} {t : Instant}

/-! ## Time passes, the log grows -/

theorem Descends.mono {log log' : List (Instant × Event)} (hlog : log ⊆ log')
    (h : Descends settings verify passwordStamp log id stamp t) :
    Descends settings verify passwordStamp log' id stamp t := by
  induction h with
  | login hmem hactive hverify hgiven => exact .login (hlog hmem) hactive hverify hgiven
  | renewal _ hpresented halive hmem hactive hgiven ih =>
    exact .renewal ih hpresented halive (hlog hmem) hactive hgiven

/-- `s'` is later than `s` and recalls all that `s` does. -/
def Later (s s' : Server) : Prop := s.now ≤ s'.now ∧ s.log ⊆ s'.log

theorem Given.later (h : Given settings verify passwordStamp s token) (hs : Later s s') :
    Given settings verify passwordStamp s' token := by
  obtain ⟨givenAt, hnow, hexp, hdesc⟩ := h
  exact ⟨givenAt, hnow.trans hs.1, hexp, hdesc.mono hs.2⟩

theorem Presented.later (h : Presented settings verify passwordStamp s kind token claims)
    (hs : Later s s') : Presented settings verify passwordStamp s' kind token claims := by
  obtain ⟨givenAt, presentedAt, hgiven, hnow, halive, hexp, hdesc⟩ := h.descends
  exact ⟨h.userId, h.stamp, h.expiresAt, givenAt, presentedAt, hgiven, hnow.trans hs.1, halive,
    hexp, hdesc.mono hs.2⟩

theorem Backed.later (h : Backed settings verify passwordStamp s stage) (hs : Later s s') :
    Backed settings verify passwordStamp s' stage := by
  cases stage with
  | granted user =>
    obtain ⟨verifiedAt, hnow, password, hmem, hrest⟩ := h
    exact ⟨verifiedAt, hnow.trans hs.1, password, hs.2 hmem, hrest⟩
  | refreshing token claims => exact Presented.later h hs
  | authorizing token claims minimum => exact Presented.later h hs
  | connecting token claims => exact Presented.later h hs
  | checking login password => trivial
  | selecting login password => trivial
  | denied => trivial
  | done reply => trivial

theorem later_records (s : Server) (event : Event) : Later s (s.records event) :=
  ⟨le_refl _, List.subset_cons_self ..⟩

theorem valid_of_fresh (h : s.Fresh) : Valid settings verify passwordStamp s where
  issued := by simp [h.2.2.1]
  requests := by simp [h.1]
  connections := by simp [h.2.1]

/-! ## One step -/

/-- A state that is later, and whose new tokens, requests and connections are backed. -/
theorem Valid.later (h : Valid settings verify passwordStamp s) (hs : Later s s')
    (hissued : ∀ token ∈ s'.issued, token ∈ s.issued ∨ Given settings verify passwordStamp s' token)
    (hrequests : ∀ stage ∈ s'.requests,
      stage ∈ s.requests ∨ Backed settings verify passwordStamp s' stage)
    (hconnections : ∀ connection ∈ s'.connections,
      (∃ old ∈ s.connections, old.token = connection.token ∧ old.claims = connection.claims) ∨
        Presented settings verify passwordStamp s' .access connection.token connection.claims) :
    Valid settings verify passwordStamp s' where
  issued token htoken :=
    (hissued token htoken).elim (fun hold ↦ (h.issued token hold).later hs) id
  requests stage hstage :=
    (hrequests stage hstage).elim (fun hold ↦ (h.requests stage hold).later hs) id
  connections connection hconnection := by
    rcases hconnections connection hconnection with ⟨old, hold, htoken, hclaims⟩ | hnew
    · have hback := (h.connections old hold).later hs
      rwa [htoken, hclaims] at hback
    · exact hnew

theorem Server.mem_goes {r : Stage} (h : r ∈ (s.goes i stage).requests) :
    r ∈ s.requests ∨ r = stage :=
  List.mem_or_eq_of_mem_set h

/-- A request moves on to a stage that is backed, and the server may record it. -/
theorem Valid.goes (stage : Stage) (h : Valid settings verify passwordStamp s) (hs : Later s s')
    (hissued : s'.issued = s.issued) (hconnections : s'.connections = s.connections)
    (hrequests : s'.requests = (s.goes i stage).requests)
    (hstage : Backed settings verify passwordStamp s' stage) :
    Valid settings verify passwordStamp s' := by
  refine h.later hs (fun token htoken ↦ .inl (hissued ▸ htoken)) (fun r hr ↦ ?_)
    fun connection hc ↦ .inl ⟨connection, hconnections ▸ hc, rfl, rfl⟩
  rw [hrequests] at hr
  rcases Server.mem_goes hr with hold | rfl
  · exact .inl hold
  · exact .inr hstage

theorem Valid.arrives (stage : Stage) (h : Valid settings verify passwordStamp s)
    (hstage : Backed settings verify passwordStamp s stage) :
    Valid settings verify passwordStamp (s.arrives stage) := by
  refine h.later ⟨le_refl _, List.Subset.refl _⟩ (fun _ ↦ .inl) (fun r hr ↦ ?_)
    fun connection hc ↦ .inl ⟨connection, hc, rfl, rfl⟩
  rcases List.mem_append.mp hr with hold | hnew
  · exact .inl hold
  · rw [List.mem_singleton] at hnew
    subst hnew
    exact .inr (Backed.later hstage ⟨le_refl _, List.Subset.refl _⟩)

theorem presented_of_decode {secret : String} (h : Valid settings verify passwordStamp s)
    (hsecret : settings.secret = some secret)
    (hknown : settings.secret = some token.key → token ∈ s.issued)
    (hdecode : decodeToken secret (some token) kind s.now = some claims) :
    Presented settings verify passwordStamp s kind token claims := by
  rw [decodeToken] at hdecode
  split at hdecode
  · next hcond =>
    obtain ⟨hkey, -, halive, htyp⟩ := hcond
    obtain ⟨givenAt, hgiven, hexp, hdesc⟩ := h.issued token (hknown (hkey ▸ hsecret))
    rw [htyp] at hexp
    rw [Option.some.injEq] at hdecode
    subst hdecode
    exact ⟨rfl, rfl, rfl, givenAt, s.now, hgiven, le_refl _, halive, hexp, hdesc⟩
  · exact absurd hdecode (by simp)

theorem Valid.presents {cookie : Option Token} {detail : String}
    {next : Token → Claims → Stage} (h : Valid settings verify passwordStamp s)
    (hknown : ∀ token, cookie = some token → settings.secret = some token.key → token ∈ s.issued)
    (hnext : ∀ token claims, Presented settings verify passwordStamp s kind token claims →
      Backed settings verify passwordStamp s (next token claims)) :
    Valid settings verify passwordStamp (s.presents settings cookie kind detail next) := by
  rw [Server.presents]
  split
  · exact h.arrives (.done .failed) trivial
  · next secret hsecret =>
    split
    · next token claims hdecode =>
      have hpresented := presented_of_decode h hsecret (hknown token rfl) hdecode
      exact h.arrives _ (hnext token claims hpresented)
    · exact h.arrives (.done (.refused 401 detail)) trivial

theorem given_setCookies (hset : s.setCookies settings id stamp = some s')
    (hdesc : Descends settings verify passwordStamp s'.log id stamp s.now) :
    s' = { s with issued := s'.issued } ∧ ∀ token ∈ s'.issued,
      token ∈ s.issued ∨ Given settings verify passwordStamp s' token := by
  obtain ⟨secret, -, rfl⟩ := Option.map_eq_some_iff.mp hset
  refine ⟨rfl, fun token htoken ↦ ?_⟩
  rcases List.mem_append.mp htoken with hold | hnew
  · exact .inl hold
  · obtain ⟨kind, -, rfl⟩ := List.mem_map.mp hnew
    exact .inr ⟨s.now, le_refl _, Int.floor_le _, hdesc⟩

theorem loadUser_eq_some {claims : TokenClaims} {db : UserDb} {user : UserRow}
    (h : loadUser passwordStamp claims db = some user) :
    user ∈ db.users ∧ user.id = claims.userId ∧ user.active ∧
      passwordStamp user.passwordHash = claims.stamp := by
  rw [loadUser] at h
  split at h
  · exact absurd h (by simp)
  · next row hfind =>
    split at h
    · next hstamp =>
      rw [Option.some.injEq] at h
      subst h
      have hrow := List.find?_some hfind
      rw [Bool.and_eq_true, decide_eq_true_eq] at hrow
      exact ⟨List.mem_of_find?_eq_some hfind, hrow.1, hrow.2, hstamp.symm⟩
    · exact absurd h (by simp)

theorem Presented.loaded {user : UserRow}
    (h : Presented settings verify passwordStamp s kind token claims)
    (hload : loadUser passwordStamp claims.toTokenClaims s.db = some user) :
    user.id = token.sub ∧ passwordStamp user.passwordHash = token.pwd ∧
      ∃ givenAt presentedAt : Instant, givenAt ≤ presentedAt ∧ presentedAt ≤ s.now ∧
        presentedAt < givenAt + settings.ttl kind ∧ Descends settings verify passwordStamp s.log
          user.id (passwordStamp user.passwordHash) givenAt := by
  obtain ⟨-, hid, -, hstamp⟩ := loadUser_eq_some hload
  obtain ⟨givenAt, presentedAt, hgiven, hnow, halive, hexp, hdesc⟩ := h.descends
  rw [h.userId] at hid
  rw [h.stamp] at hstamp
  rw [← hid, ← hstamp] at hdesc
  exact ⟨hid, hstamp, givenAt, presentedAt, hgiven, hnow, halive.trans_le hexp, hdesc⟩

section

variable (h : Valid settings verify passwordStamp s)
include h

theorem Valid.selected {login password : String} :
    Valid settings verify passwordStamp (s.selected verify i login password) := by
  rw [Server.selected]
  split
  · next row _ =>
    split
    · next hcond =>
      rw [Bool.and_eq_true] at hcond
      refine h.goes (.granted row) (later_records (s.goes i _) _) rfl rfl rfl ?_
      exact ⟨s.now, le_refl _, password, List.mem_cons_self, hcond.1, hcond.2⟩
    · exact h.goes (.denied) ⟨le_refl _, List.Subset.refl _⟩ rfl rfl rfl trivial
  · exact h.goes (.denied) ⟨le_refl _, List.Subset.refl _⟩ rfl rfl rfl trivial

theorem Valid.logged {user : UserRow} (hi : s.requests[i]? = some (.granted user)) :
    Valid settings verify passwordStamp (s.logged settings passwordStamp i user) := by
  rw [Server.logged]
  split
  · next s' hset =>
    obtain ⟨verifiedAt, hnow, password, hmem, hactive, hverify⟩ :=
      h.requests _ (List.mem_of_getElem? hi)
    have hlog : s'.log = s.log := by
      obtain ⟨secret, -, rfl⟩ := Option.map_eq_some_iff.mp hset
      rfl
    obtain ⟨heq, hgiven⟩ := given_setCookies hset
      (.login (hlog ▸ hmem) hactive hverify hnow)
    rw [heq] at hgiven ⊢
    refine h.later ⟨le_refl _, List.Subset.refl _⟩ hgiven (fun r hr ↦ ?_)
      fun connection hc ↦ .inl ⟨connection, hc, rfl, rfl⟩
    rcases List.mem_or_eq_of_mem_set hr with hold | rfl
    · exact .inl hold
    · exact .inr trivial
  · exact h.goes (.done .failed) ⟨le_refl _, List.Subset.refl _⟩ rfl rfl rfl trivial

theorem Valid.refreshed (hi : s.requests[i]? = some (.refreshing token claims)) :
    Valid settings verify passwordStamp (s.refreshed settings passwordStamp i token claims) := by
  rw [Server.refreshed]
  have hpresented : Presented settings verify passwordStamp s .refresh token claims :=
    h.requests _ (List.mem_of_getElem? hi)
  split
  · exact h.goes _ ⟨le_refl _, List.Subset.refl _⟩ rfl rfl rfl trivial
  · next user hload =>
    obtain ⟨-, -, firstAt, presentedAt, hfirst, hnow, halive, hdesc⟩ := hpresented.loaded hload
    obtain ⟨-, -, hactive, -⟩ := loadUser_eq_some hload
    split
    · next s' hset =>
      obtain ⟨secret, -, hs'⟩ := Option.map_eq_some_iff.mp hset
      have hdesc' : Descends settings verify passwordStamp
          ((s.now, .renewed user token) :: s.log) user.id (passwordStamp user.passwordHash)
          s.now :=
        .renewal (hdesc.mono (List.subset_cons_self ..)) hfirst halive List.mem_cons_self hactive
          hnow
      refine h.later ?_ (fun token' htoken ↦ ?_) (fun r hr ↦ ?_) fun connection hc ↦ ?_
      · subst hs'
        exact ⟨le_refl _, List.subset_cons_self ..⟩
      · subst hs'
        rcases List.mem_append.mp htoken with hold | hnew
        · exact .inl hold
        · obtain ⟨kind, -, rfl⟩ := List.mem_map.mp hnew
          exact .inr ⟨s.now, le_refl _, Int.floor_le _, hdesc'⟩
      · subst hs'
        rcases List.mem_or_eq_of_mem_set hr with hold | rfl
        · exact .inl hold
        · exact .inr trivial
      · subst hs'
        exact .inl ⟨connection, hc, rfl, rfl⟩
    · exact h.goes (.done .failed) ⟨le_refl _, List.Subset.refl _⟩ rfl rfl rfl trivial

theorem Valid.authorized {minimum : Option RoleName} :
    Valid settings verify passwordStamp (s.authorized passwordStamp i token claims minimum) := by
  rw [Server.authorized]
  split
  · exact h.goes _ ⟨le_refl _, List.Subset.refl _⟩ rfl rfl rfl trivial
  · next user _ =>
    split
    · exact h.goes (.done (.ok user)) (later_records (s.goes i _) _) rfl rfl rfl trivial
    · exact h.goes _ ⟨le_refl _, List.Subset.refl _⟩ rfl rfl rfl trivial

theorem Valid.accepted (hi : s.requests[i]? = some (.connecting token claims)) :
    Valid settings verify passwordStamp (s.accepted passwordStamp i token claims) := by
  have hpresented : Presented settings verify passwordStamp s .access token claims :=
    h.requests _ (List.mem_of_getElem? hi)
  rw [Server.accepted]
  split
  · exact h.goes _ ⟨le_refl _, List.Subset.refl _⟩ rfl rfl rfl trivial
  · next user _ =>
    have hlater : Later s ((s.goes i (.done (.ok user))).records (.connected user token)) :=
      later_records (s.goes i _) _
    refine h.later hlater (fun _ ↦ .inl) (fun r hr ↦ ?_) fun connection hc ↦ ?_
    · rcases List.mem_or_eq_of_mem_set hr with hold | rfl
      · exact .inl hold
      · exact .inr trivial
    · rcases List.mem_append.mp hc with hold | hnew
      · exact .inl ⟨connection, hold, rfl, rfl⟩
      · rw [List.mem_singleton] at hnew
        subst hnew
        exact .inr (hpresented.later hlater)

theorem Valid.resumed (hstep : s.resumed settings verify passwordStamp i = some s') :
    Valid settings verify passwordStamp s' := by
  rw [Server.resumed] at hstep
  split at hstep
  · obtain rfl := Option.some.inj hstep
    exact h.selected
  · next hi =>
    obtain rfl := Option.some.inj hstep
    exact h.logged hi
  · obtain rfl := Option.some.inj hstep
    exact h.goes _ ⟨le_refl _, List.Subset.refl _⟩ rfl rfl rfl trivial
  · next hi =>
    obtain rfl := Option.some.inj hstep
    exact h.refreshed hi
  · obtain rfl := Option.some.inj hstep
    exact h.authorized
  · next hi =>
    obtain rfl := Option.some.inj hstep
    exact h.accepted hi
  · exact absurd hstep (by simp)
  · exact absurd hstep (by simp)
  · exact absurd hstep (by simp)

theorem Valid.pumped (hstep : s.pumped i = some s') : Valid settings verify passwordStamp s' := by
  rw [Server.pumped] at hstep
  split at hstep
  · next connection hi =>
    split at hstep
    · exact absurd hstep (by simp)
    split at hstep
    · rw [Option.some.injEq] at hstep
      subst hstep
      refine h.later ⟨le_refl _, List.Subset.refl _⟩ (fun _ ↦ .inl) (fun _ ↦ .inl) fun c hc ↦ ?_
      rcases List.mem_or_eq_of_mem_set hc with hold | rfl
      · exact .inl ⟨c, hold, rfl, rfl⟩
      · exact .inl ⟨connection, List.mem_of_getElem? hi, rfl, rfl⟩
    · rw [Option.some.injEq] at hstep
      subst hstep
      exact h.later (later_records s _) (fun _ ↦ .inl) (fun _ ↦ .inl) fun c hc ↦
        .inl ⟨c, hc, rfl, rfl⟩
  · exact absurd hstep (by simp)

/-- **One step.** -/
theorem Valid.step {label : Label}
    (hstep : Steps settings verify passwordStamp s label s') :
    Valid settings verify passwordStamp s' := by
  obtain ⟨hknown, hnext⟩ := hstep
  cases label with
  | elapses d =>
    rw [Server.next] at hnext
    split at hnext
    · next hd =>
      rw [Option.some.injEq] at hnext
      subst hnext
      exact h.later ⟨le_add_of_nonneg_right hd, List.Subset.refl _⟩ (fun _ ↦ .inl) (fun _ ↦ .inl)
        fun c hc ↦ .inl ⟨c, hc, rfl, rfl⟩
    · exact absurd hnext (by simp)
  | writes change =>
    obtain rfl := Option.some.inj hnext
    exact h.later ⟨le_refl _, List.Subset.refl _⟩ (fun _ ↦ .inl) (fun _ ↦ .inl)
      fun c hc ↦ .inl ⟨c, hc, rfl, rfl⟩
  | logsIn login password =>
    obtain rfl := Option.some.inj hnext
    exact h.arrives (.checking login password) trivial
  | refreshes cookie =>
    obtain rfl := Option.some.inj hnext
    exact h.presents hknown fun _ _ ↦ id
  | asks cookie minimum =>
    obtain rfl := Option.some.inj hnext
    exact h.presents hknown fun _ _ ↦ id
  | connects cookie =>
    obtain rfl := Option.some.inj hnext
    exact h.presents hknown fun _ _ ↦ id
  | checked i locked =>
    rw [Server.next] at hnext
    split at hnext
    · obtain rfl := Option.some.inj hnext
      refine h.goes _ ⟨le_refl _, List.Subset.refl _⟩ rfl rfl rfl ?_
      split <;> trivial
    · exact absurd hnext (by simp)
  | resumed i => exact h.resumed hnext
  | raises i =>
    rw [Server.next] at hnext
    split at hnext
    · exact absurd hnext (by simp)
    · exact absurd hnext (by simp)
    · obtain rfl := Option.some.inj hnext
      exact h.goes _ ⟨le_refl _, List.Subset.refl _⟩ rfl rfl rfl trivial
  | pumped i => exact h.pumped hnext

end

/-- **Every run.** -/
theorem valid_of_path {labels : List Label} (hs : s.Fresh)
    (hrun : Trace.Path (Steps settings verify passwordStamp) s labels s') :
    Valid settings verify passwordStamp s' :=
  hrun.invariant (Valid settings verify passwordStamp) (fun h hstep ↦ h.step hstep)
    (valid_of_fresh hs)

/-! ## What is recorded -/

/-- What holds of the server when it records an event. -/
def Recorded (verify : String → String → Bool) (passwordStamp : String → String) (s : Server) :
    Event → Prop
  | .verified user password =>
    user ∈ s.db.users ∧ user.active ∧ verify user.passwordHash password
  | .renewed user token => ∃ claims, .refreshing token claims ∈ s.requests ∧
      loadUser passwordStamp claims.toTokenClaims s.db = some user
  | .accepted user minimum token => ∃ claims, .authorizing token claims minimum ∈ s.requests ∧
      loadUser passwordStamp claims.toTokenClaims s.db = some user ∧
      minimum.all (hasRole user.role)
  | .connected user token => ∃ claims, .connecting token claims ∈ s.requests ∧
      loadUser passwordStamp claims.toTokenClaims s.db = some user
  | .relayed token => ∃ connection ∈ s.connections, connection.token = token ∧
      s.now < connection.claims.expiresAt

/-- A connection was there before, or is recorded as new. -/
def Opened (s s' : Server) : Prop :=
  ∀ connection ∈ s'.connections,
    (∃ old ∈ s.connections, old.token = connection.token ∧ old.claims = connection.claims) ∨
      ∃ user, s'.log = (s.now, .connected user connection.token) :: s.log

/-- What a step leaves in the log. -/
inductive Logs (verify : String → String → Bool) (passwordStamp : String → String)
    (s s' : Server) : Prop
  | nothing (hlog : s'.log = s.log)
  | event (event : Event) (hrecorded : Recorded verify passwordStamp s event)
      (hlog : s'.log = (s.now, event) :: s.log)

theorem logs_arrives (s : Server) (stage : Stage) :
    Logs verify passwordStamp s (s.arrives stage) ∧ Opened s (s.arrives stage) :=
  ⟨.nothing rfl, fun connection hc ↦ .inl ⟨connection, hc, rfl, rfl⟩⟩

theorem logs_presents {cookie : Option Token} {detail : String} {next : Token → Claims → Stage} :
    Logs verify passwordStamp s (s.presents settings cookie kind detail next) ∧
      Opened s (s.presents settings cookie kind detail next) := by
  rw [Server.presents]
  split
  · exact logs_arrives ..
  · split
    · exact logs_arrives ..
    · exact logs_arrives ..

theorem setCookies_log (h : s.setCookies settings id stamp = some s') :
    s'.log = s.log ∧ s'.now = s.now ∧ s'.connections = s.connections := by
  obtain ⟨secret, -, rfl⟩ := Option.map_eq_some_iff.mp h
  exact ⟨rfl, rfl, rfl⟩

theorem logs_selected {login password : String} :
    Logs verify passwordStamp s (s.selected verify i login password) ∧
      Opened s (s.selected verify i login password) := by
  rw [Server.selected]
  split
  · next row hfind =>
    split
    · next hcond =>
      rw [Bool.and_eq_true] at hcond
      exact ⟨.event (.verified row password) ⟨List.mem_of_find?_eq_some hfind, hcond⟩ rfl,
        fun connection hc ↦ .inl ⟨connection, hc, rfl, rfl⟩⟩
    · exact ⟨.nothing rfl, fun connection hc ↦ .inl ⟨connection, hc, rfl, rfl⟩⟩
  · exact ⟨.nothing rfl, fun connection hc ↦ .inl ⟨connection, hc, rfl, rfl⟩⟩

theorem logs_logged {user : UserRow} :
    Logs verify passwordStamp s (s.logged settings passwordStamp i user) ∧
      Opened s (s.logged settings passwordStamp i user) := by
  rw [Server.logged]
  split
  · next s' hset =>
    obtain ⟨hlog, -, hconnections⟩ := setCookies_log hset
    exact ⟨.nothing hlog, fun connection hc ↦ .inl ⟨connection, hconnections ▸ hc, rfl, rfl⟩⟩
  · exact ⟨.nothing rfl, fun connection hc ↦ .inl ⟨connection, hc, rfl, rfl⟩⟩

theorem logs_refreshed (hi : s.requests[i]? = some (.refreshing token claims)) :
    Logs verify passwordStamp s (s.refreshed settings passwordStamp i token claims) ∧
      Opened s (s.refreshed settings passwordStamp i token claims) := by
  rw [Server.refreshed]
  split
  · exact ⟨.nothing rfl, fun connection hc ↦ .inl ⟨connection, hc, rfl, rfl⟩⟩
  · next user hload =>
    split
    · next s' hset =>
      obtain ⟨hlog, hnow, hconnections⟩ := setCookies_log hset
      refine ⟨.event (.renewed user token) ⟨claims, List.mem_of_getElem? hi, hload⟩ ?_,
        fun connection hc ↦ .inl ⟨connection, hconnections ▸ hc, rfl, rfl⟩⟩
      simp only [Server.records, Server.goes, hlog, hnow]
    · exact ⟨.nothing rfl, fun connection hc ↦ .inl ⟨connection, hc, rfl, rfl⟩⟩

theorem logs_authorized {minimum : Option RoleName}
    (hi : s.requests[i]? = some (.authorizing token claims minimum)) :
    Logs verify passwordStamp s (s.authorized passwordStamp i token claims minimum) ∧
      Opened s (s.authorized passwordStamp i token claims minimum) := by
  rw [Server.authorized]
  split
  · exact ⟨.nothing rfl, fun connection hc ↦ .inl ⟨connection, hc, rfl, rfl⟩⟩
  · next user hload =>
    split
    · next hrole =>
      exact ⟨.event (.accepted user minimum token)
          ⟨claims, List.mem_of_getElem? hi, hload, hrole⟩ rfl,
        fun connection hc ↦ .inl ⟨connection, hc, rfl, rfl⟩⟩
    · exact ⟨.nothing rfl, fun connection hc ↦ .inl ⟨connection, hc, rfl, rfl⟩⟩

theorem logs_accepted (hi : s.requests[i]? = some (.connecting token claims)) :
    Logs verify passwordStamp s (s.accepted passwordStamp i token claims) ∧
      Opened s (s.accepted passwordStamp i token claims) := by
  rw [Server.accepted]
  split
  · exact ⟨.nothing rfl, fun connection hc ↦ .inl ⟨connection, hc, rfl, rfl⟩⟩
  · next user hload =>
    refine ⟨.event (.connected user token) ⟨claims, List.mem_of_getElem? hi, hload⟩ rfl,
      fun connection hc ↦ ?_⟩
    rcases List.mem_append.mp hc with hold | hnew
    · exact .inl ⟨connection, hold, rfl, rfl⟩
    · rw [List.mem_singleton] at hnew
      subst hnew
      exact .inr ⟨user, rfl⟩

theorem logs_resumed (h : s.resumed settings verify passwordStamp i = some s') :
    Logs verify passwordStamp s s' ∧ Opened s s' := by
  rw [Server.resumed] at h
  split at h
  · obtain rfl := Option.some.inj h
    exact logs_selected
  · obtain rfl := Option.some.inj h
    exact logs_logged
  · obtain rfl := Option.some.inj h
    exact ⟨.nothing rfl, fun connection hc ↦ .inl ⟨connection, hc, rfl, rfl⟩⟩
  · next hi =>
    obtain rfl := Option.some.inj h
    exact logs_refreshed hi
  · next hi =>
    obtain rfl := Option.some.inj h
    exact logs_authorized hi
  · next hi =>
    obtain rfl := Option.some.inj h
    exact logs_accepted hi
  · exact absurd h (by simp)
  · exact absurd h (by simp)
  · exact absurd h (by simp)

theorem logs_pumped (h : s.pumped i = some s') :
    Logs verify passwordStamp s s' ∧ Opened s s' := by
  rw [Server.pumped] at h
  split at h
  · next connection hi =>
    split at h
    · exact absurd h (by simp)
    split at h
    · obtain rfl := Option.some.inj h
      refine ⟨.nothing rfl, fun c hc ↦ .inl ?_⟩
      rcases List.mem_or_eq_of_mem_set hc with hold | rfl
      · exact ⟨c, hold, rfl, rfl⟩
      · exact ⟨connection, List.mem_of_getElem? hi, rfl, rfl⟩
    · next hexp =>
      obtain rfl := Option.some.inj h
      exact ⟨.event (.relayed connection.token)
          ⟨connection, List.mem_of_getElem? hi, rfl, not_le.mp hexp⟩ rfl,
        fun c hc ↦ .inl ⟨c, hc, rfl, rfl⟩⟩
  · exact absurd h (by simp)

/-- At most one event is recorded in a step, and what it says holds then. -/
theorem logs_of_next {label : Label}
    (h : s.next settings verify passwordStamp label = some s') :
    Logs verify passwordStamp s s' ∧ Opened s s' := by
  cases label with
  | elapses d =>
    rw [Server.next] at h
    split at h
    · obtain rfl := Option.some.inj h
      exact ⟨.nothing rfl, fun c hc ↦ .inl ⟨c, hc, rfl, rfl⟩⟩
    · exact absurd h (by simp)
  | writes change =>
    obtain rfl := Option.some.inj h
    exact ⟨.nothing rfl, fun c hc ↦ .inl ⟨c, hc, rfl, rfl⟩⟩
  | logsIn login password =>
    obtain rfl := Option.some.inj h
    exact logs_arrives ..
  | refreshes cookie =>
    obtain rfl := Option.some.inj h
    exact logs_presents
  | asks cookie minimum =>
    obtain rfl := Option.some.inj h
    exact logs_presents
  | connects cookie =>
    obtain rfl := Option.some.inj h
    exact logs_presents
  | checked i locked =>
    rw [Server.next] at h
    split at h
    · obtain rfl := Option.some.inj h
      exact ⟨.nothing rfl, fun c hc ↦ .inl ⟨c, hc, rfl, rfl⟩⟩
    · exact absurd h (by simp)
  | resumed i => exact logs_resumed h
  | raises i =>
    rw [Server.next] at h
    split at h
    · exact absurd h (by simp)
    · exact absurd h (by simp)
    · obtain rfl := Option.some.inj h
      exact ⟨.nothing rfl, fun c hc ↦ .inl ⟨c, hc, rfl, rfl⟩⟩
  | pumped i => exact logs_pumped h

/-! ## What is let in -/

/-- The user that an event lets in, the role that was asked for and the token presented. -/
def Event.letsIn : Event → Option (UserRow × Option RoleName × Token)
  | accepted user minimum token => some (user, minimum, token)
  | connected user token => some (user, none, token)
  | verified .. | renewed .. | relayed _ => none

/-- **Access goes back to a password.** In every run, a user that is let in is there and active and
has the role that is asked for at that moment; the token presented is one of its session, given at
most the life of an access token before it was presented. -/
theorem letsIn_descends {s₀ : Server} {labels : List Label} {label : Label} {event : Event}
    {user : UserRow} {minimum : Option RoleName} (hs : s₀.Fresh)
    (hrun : Trace.Path (Steps settings verify passwordStamp) s₀ labels s)
    (hstep : Steps settings verify passwordStamp s label s')
    (hlog : s'.log = (t, event) :: s.log) (hevent : event.letsIn = some (user, minimum, token)) :
    user ∈ s.db.users ∧ user.active ∧ minimum.all (hasRole user.role) ∧ token.sub = user.id ∧
      ∃ givenAt presentedAt : Instant, givenAt ≤ presentedAt ∧ presentedAt ≤ t ∧
        presentedAt < givenAt + settings.ttl .access ∧ Descends settings verify passwordStamp s.log
          user.id (passwordStamp user.passwordHash) givenAt := by
  have hvalid := valid_of_path hs hrun
  obtain ⟨hlogs, -⟩ := logs_of_next hstep.2
  cases hlogs with
  | nothing hsame =>
    rw [hsame] at hlog
    exact absurd hlog (List.cons_ne_self _ _).symm
  | event event' hrecorded hsame =>
    rw [hsame, List.cons.injEq, Prod.mk.injEq] at hlog
    obtain ⟨⟨rfl, rfl⟩, -⟩ := hlog
    cases event' with
    | accepted user' minimum' token' =>
      simp only [Event.letsIn, Option.some.injEq, Prod.mk.injEq] at hevent
      obtain ⟨rfl, rfl, rfl⟩ := hevent
      obtain ⟨claims, hmem, hload, hrole⟩ := hrecorded
      obtain ⟨hid, -, hsession⟩ := Presented.loaded (hvalid.requests _ hmem) hload
      obtain ⟨huser, -, hactive, -⟩ := loadUser_eq_some hload
      exact ⟨huser, hactive, hrole, hid.symm, hsession⟩
    | connected user' token' =>
      simp only [Event.letsIn, Option.some.injEq, Prod.mk.injEq] at hevent
      obtain ⟨rfl, rfl, rfl⟩ := hevent
      obtain ⟨claims, hmem, hload⟩ := hrecorded
      obtain ⟨hid, -, hsession⟩ := Presented.loaded (hvalid.requests _ hmem) hload
      obtain ⟨huser, -, hactive, -⟩ := loadUser_eq_some hload
      exact ⟨huser, hactive, rfl, hid.symm, hsession⟩
    | verified user' password => simp [Event.letsIn] at hevent
    | renewed user' token' => simp [Event.letsIn] at hevent
    | relayed token' => simp [Event.letsIn] at hevent

instance (settings : Settings) (s : Server) (label : Label) : Decidable (Known settings s label) :=
  inferInstanceAs (Decidable (∀ token ∈ label.cookie,
    settings.secret = some token.key → token ∈ s.issued))

/-- A secret that is long enough, and tokens of fifteen minutes and of seven days. -/
def signed : Settings := ⟨some "abcdefghijklmnopqrstuvwxyz012345", 15, 7⟩

/-- A password is the end of its hash, which is its own stamp. -/
def verifyPlain (hash password : String) : Bool := hash = "argon2:" ++ password

def plainStamp (hash : String) : String := hash

def ana : UserRow := ⟨1, "ana", .operator, true, "argon2:chaudière"⟩

def oneUser : Server := { now := 0, db := ⟨[ana], [], []⟩ }

def accessOf (user : UserRow) (now : Instant) : Token :=
  createToken "abcdefghijklmnopqrstuvwxyz012345" user.id .access (signed.ttl .access) now
    user.passwordHash

/-- A login, and a request ten minutes later. -/
def visit : List Label :=
  [.logsIn "ana" "chaudière", .checked 0 false, .resumed 0, .resumed 0, .elapses 600,
    .asks (some (accessOf ana 0)) (some .operator)]

/-- What is done with the run of a list of labels, where it is possible. -/
def runTo (s : Server) (labels : List Label) : Option Server :=
  Trace.exec (fun s label ↦ if Known signed s label then
    s.next signed verifyPlain plainStamp label else none) s labels

/-- The steps of such a run. -/
abbrev PlainSteps : Server → Label → Server → Prop := Steps signed verifyPlain plainStamp

theorem letsIn_descends_visit : ∃ s s' : Server, s'.log = (600, .accepted ana (some .operator)
      (accessOf ana 0)) :: s.log ∧ ana ∈ s.db.users ∧
    ∃ givenAt presentedAt : Instant, givenAt ≤ presentedAt ∧ presentedAt ≤ 600 ∧
      presentedAt < givenAt + signed.ttl .access ∧
        Descends signed verifyPlain plainStamp s.log 1 "argon2:chaudière" givenAt := by
  have hends : (runTo oneUser visit).bind (fun s ↦
      (s.next signed verifyPlain plainStamp (.resumed 1)).map fun s' ↦
        decide (s'.log = (600, .accepted ana (some .operator) (accessOf ana 0)) :: s.log)) =
      some true := by decide +kernel
  obtain ⟨s, hs, hends⟩ := Option.bind_eq_some_iff.mp hends
  obtain ⟨s', hs', hlog⟩ := Option.map_eq_some_iff.mp hends
  have hlog := of_decide_eq_true hlog
  have hrun : Trace.Path PlainSteps oneUser visit s := .of_exec_checked hs
  have hstep : PlainSteps s (.resumed 1) s' := ⟨by simp [Known, Label.cookie], hs'⟩
  obtain ⟨huser, -, -, -, hsession⟩ := letsIn_descends ⟨rfl, rfl, rfl, rfl⟩ hrun hstep hlog rfl
  exact ⟨s, s', hlog, huser, hsession⟩

/-! ## What is cut off -/

/-- No active user has this identifier and a hash with this stamp: it is deactivated or deleted, or
its password has changed. -/
def Barred (passwordStamp : String → String) (id : Uuid) (stamp : String) (db : UserDb) : Prop :=
  ∀ row ∈ db.users, row.id = id → row.active → passwordStamp row.passwordHash ≠ stamp

/-- An event that leaves a session without access: it is of another one, or relays a message before
the limit. -/
def CutOff (id : Uuid) (stamp : String) (limit : Instant) : Instant × Event → Prop
  | (_, .verified ..) => True
  | (_, .renewed _ token) | (_, .accepted _ _ token) | (_, .connected _ token) =>
    ¬ (token.sub = id ∧ token.pwd = stamp)
  | (time, .relayed token) => token.sub = id → token.pwd = stamp → time < limit

theorem not_loaded_of_barred {user : UserRow} (hbarred : Barred passwordStamp id stamp s.db)
    (h : Presented settings verify passwordStamp s kind token claims)
    (hload : loadUser passwordStamp claims.toTokenClaims s.db = some user) :
    ¬ (token.sub = id ∧ token.pwd = stamp) := by
  rintro ⟨hid, hstamp⟩
  obtain ⟨huser, -, hactive, -⟩ := loadUser_eq_some hload
  obtain ⟨hid', hstamp', -⟩ := h.loaded hload
  exact hbarred user huser (hid'.trans hid) hactive (hstamp'.trans hstamp)

/-- The steps of the server while a session is barred. -/
abbrev BarredSteps (settings : Settings) (verify : String → String → Bool)
    (passwordStamp : String → String) (id : Uuid) (stamp : String) :
    Server → Label → Server → Prop :=
  Trace.Stepping (Server.next settings verify passwordStamp) fun s label ↦
    Known settings s label ∧ Barred passwordStamp id stamp s.db

/-- What is left of a session that has been barred since `s`. -/
structure Cut (settings : Settings) (verify : String → String → Bool)
    (passwordStamp : String → String) (id : Uuid) (stamp : String) (s u : Server) : Prop where
  valid : Valid settings verify passwordStamp u
  connections : ∀ connection ∈ u.connections, connection.token.sub = id →
    connection.token.pwd = stamp → connection.claims.expiresAt ≤ s.now + settings.ttl .access
  log : ∃ new, u.log = new ++ s.log ∧ ∀ entry ∈ new,
    CutOff id stamp (s.now + settings.ttl .access) entry

/-- The connections that are open expire with the tokens given so far. -/
theorem Valid.cut (h : Valid settings verify passwordStamp s) :
    Cut settings verify passwordStamp id stamp s s where
  valid := h
  connections connection hc _ _ := by
    have hpresented := h.connections connection hc
    obtain ⟨givenAt, presentedAt, hgiven, hnow, -, hexp, -⟩ := hpresented.descends
    rw [hpresented.expiresAt]
    refine hexp.trans (add_le_add_left ?_ _)
    exact hgiven.trans hnow
  log := ⟨[], rfl, by simp⟩

theorem Cut.cutOff {u : Server} {event : Event}
    (h : Cut settings verify passwordStamp id stamp s u)
    (hbarred : Barred passwordStamp id stamp u.db)
    (hrecorded : Recorded verify passwordStamp u event) :
    CutOff id stamp (s.now + settings.ttl .access) (u.now, event) := by
  cases event with
  | verified user password => trivial
  | renewed user token =>
    obtain ⟨claims, hmem, hload⟩ := hrecorded
    exact not_loaded_of_barred hbarred (h.valid.requests _ hmem) hload
  | accepted user minimum token =>
    obtain ⟨claims, hmem, hload, -⟩ := hrecorded
    exact not_loaded_of_barred hbarred (h.valid.requests _ hmem) hload
  | connected user token =>
    obtain ⟨claims, hmem, hload⟩ := hrecorded
    exact not_loaded_of_barred hbarred (h.valid.requests _ hmem) hload
  | relayed token =>
    obtain ⟨connection, hmem, rfl, hnow⟩ := hrecorded
    exact fun hid hstamp ↦ hnow.trans_le (h.connections connection hmem hid hstamp)

theorem Cut.step {u u' : Server} {label : Label}
    (h : Cut settings verify passwordStamp id stamp s u)
    (hstep : BarredSteps settings verify passwordStamp id stamp u label u') :
    Cut settings verify passwordStamp id stamp s u' := by
  obtain ⟨⟨hknown, hbarred⟩, hnext⟩ := hstep
  obtain ⟨hlogs, hopened⟩ := logs_of_next hnext
  obtain ⟨new, hlog, hnew⟩ := h.log
  refine ⟨h.valid.step ⟨hknown, hnext⟩, fun connection hc hid hstamp ↦ ?_, ?_⟩
  · rcases hopened connection hc with ⟨old, hold, htoken, hclaims⟩ | ⟨user, hconnected⟩
    · rw [← hclaims]
      exact h.connections old hold (htoken ▸ hid) (htoken ▸ hstamp)
    · -- A connection that opens is recorded, and a barred session records none.
      cases hlogs with
      | nothing hsame => exact absurd (hsame.symm.trans hconnected) (List.cons_ne_self _ _).symm
      | event event hrecorded hsame =>
        have hevent := hsame.symm.trans hconnected
        rw [List.cons.injEq, Prod.mk.injEq] at hevent
        obtain ⟨⟨-, rfl⟩, -⟩ := hevent
        exact absurd ⟨hid, hstamp⟩ (h.cutOff hbarred hrecorded)
  · cases hlogs with
    | nothing hsame => exact ⟨new, hsame.trans hlog, hnew⟩
    | event event hrecorded hsame =>
      refine ⟨(u.now, event) :: new, by rw [hsame, hlog, List.cons_append], fun entry hentry ↦ ?_⟩
      rcases List.mem_cons.mp hentry with rfl | hold
      · exact h.cutOff hbarred hrecorded
      · exact hnew entry hold

/-- **A session that is barred is cut off.** Of a session that is barred from some moment on,
nothing is accepted after that moment and nothing renewed, whatever was under way; the WebSockets it
has opened relay nothing once the life of an access token has passed. -/
theorem cutOff_of_barred {s₀ : Server} {before after : List Label} (hs : s₀.Fresh)
    (hbefore : Trace.Path (Steps settings verify passwordStamp) s₀ before s)
    (hafter : Trace.Path (BarredSteps settings verify passwordStamp id stamp) s after s') :
    ∃ new, s'.log = new ++ s.log ∧
      ∀ entry ∈ new, CutOff id stamp (s.now + settings.ttl .access) entry :=
  (hafter.invariant (Cut settings verify passwordStamp id stamp s) (fun h hstep ↦ h.step hstep)
    (valid_of_path hs hbefore).cut).log

/-- Ana opens a WebSocket. -/
def opening : List Label :=
  [.logsIn "ana" "chaudière", .checked 0 false, .resumed 0, .resumed 0, .elapses 600,
    .connects (some (accessOf ana 0)), .resumed 1, .pumped 0,
    .writes fun db ↦ { db with users := [{ ana with active := false }] }]

/-- Ana is deactivated, and her WebSocket still relays a message before her token expires. -/
def leaving : List Label :=
  [.elapses 200, .pumped 0, .asks (some (accessOf ana 0)) none, .resumed 2, .elapses 200, .pumped 0]

instance (s : Server) : Decidable (Barred plainStamp 1 "argon2:chaudière" s.db) :=
  inferInstanceAs (Decidable (∀ row ∈ s.db.users, row.id = 1 → row.active →
    plainStamp row.passwordHash ≠ "argon2:chaudière"))

theorem cutOff_of_barred_leaving : ∃ s s' : Server,
    s'.log = [(800, .relayed (accessOf ana 0))] ++ s.log ∧ ∃ new, s'.log = new ++ s.log ∧
      ∀ entry ∈ new, CutOff 1 "argon2:chaudière" (600 + signed.ttl .access) entry := by
  have hends : (runTo oneUser opening).bind (fun s ↦ (Trace.exec (fun s label ↦
        if Known signed s label ∧ Barred plainStamp 1 "argon2:chaudière" s.db then
          s.next signed verifyPlain plainStamp label else none) s leaving).map
      fun s' ↦ decide (s.now = 600 ∧ s'.log = [(800, .relayed (accessOf ana 0))] ++ s.log)) =
      some true := by decide +kernel
  obtain ⟨s, hs, hends⟩ := Option.bind_eq_some_iff.mp hends
  obtain ⟨s', hs', hlog⟩ := Option.map_eq_some_iff.mp hends
  obtain ⟨hnow, hlog⟩ := of_decide_eq_true hlog
  have hbefore : Trace.Path PlainSteps oneUser opening s := .of_exec_checked hs
  have hafter : Trace.Path (BarredSteps signed verifyPlain plainStamp 1 "argon2:chaudière") s
      leaving s' := .of_exec_checked hs'
  exact ⟨s, s', hlog, hnow ▸ cutOff_of_barred ⟨rfl, rfl, rfl, rfl⟩ hbefore hafter⟩

end Superviseur.Sessions
