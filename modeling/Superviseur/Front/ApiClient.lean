import Superviseur.Api.Access

/-!
# Second tries

A call of the client sends its request; when the answer is a 401 it renews the session, and sends
the request a second time if that succeeds. It does so for whatever it sends, a command as well as a
read, and does not know what the server has done of the first request. A request is lost or
delivered, even after the client has given up; answers are lost as well.

The calls are run against the server of `Api/Sessions`, with all that happens there meanwhile. Its
handler runs once the user is let in, and answers anything but a 401, which only the control of the
session says. What a call asks for is therefore done at most once, and is done when the call
succeeds (`handled_once`).
-/

namespace Superviseur.ApiClient

/-- `fetch`: a request on its way, then the one that the server makes of it. -/
inductive Fetch where
  | sent (cookie : Option Sessions.Token)
  | reached (request : ℕ)

/-- What a call waits for. -/
inductive Stage where
  | trying (fetch : Fetch)
  /-- `refresh`, after a 401. -/
  | renewing (fetch : Fetch)
  | retrying (fetch : Fetch)
  /-- It returns, or throws the error of this status. -/
  | settled (status : ℕ)

/-- `send`, `get` or `acknowledge`, for a route that asks for a role. -/
structure Call where
  minimum : Option RoleName
  stage : Stage
  /-- The requests that the server has made of its tries. -/
  tried : List ℕ := []
  /-- `fetch` has rejected, or was aborted: the call throws, and looks at no answer any more. -/
  gaveUp : Bool := false

structure World where
  server : Sessions.Server
  calls : List Call := []

inductive Label where
  /-- Whatever happens at the server. -/
  | server (label : Sessions.Label)
  | starts (minimum : Option RoleName) (cookie : Option Sessions.Token)
  /-- What call `c` has sent reaches the server. -/
  | delivered (c : ℕ)
  /-- The answer to call `c` is there. If it sends something else, it has this cookie by then. -/
  | answered (c : ℕ) (status : ℕ) (cookie : Option Sessions.Token)
  | rejected (c : ℕ)

/-- `response.ok`. -/
def isOk (status : ℕ) : Bool := 200 ≤ status && status < 300

/-- The statuses that a reply of the server may have: a handler never answers 401. -/
def answers : Sessions.Reply → ℕ → Bool
  | .ok _, status => status ≠ 401
  | .refused code _, status => status = code
  | .failed, status => status = 500

namespace World

variable (settings : Sessions.Settings) (verify : String → String → Bool)
  (passwordStamp : String → String)

def goes (w : World) (c : ℕ) (call : Call) : World :=
  { w with calls := w.calls.set c call }

/-- What call `c` has sent reaches the server. -/
def delivered (w : World) (c : ℕ) (call : Call) : Option World :=
  let request := w.server.requests.length
  let reaches (label : Sessions.Label) (call : Call) : Option World :=
    (w.server.next settings verify passwordStamp label).map fun server ↦
      { w with server }.goes c call
  match call.stage with
  | .trying (.sent cookie) => reaches (.asks cookie call.minimum)
      { call with stage := .trying (.reached request), tried := call.tried ++ [request] }
  | .renewing (.sent cookie) => reaches (.refreshes cookie)
      { call with stage := .renewing (.reached request) }
  | .retrying (.sent cookie) => reaches (.asks cookie call.minimum)
      { call with stage := .retrying (.reached request), tried := call.tried ++ [request] }
  | .trying (.reached _) | .renewing (.reached _) | .retrying (.reached _) | .settled _ => none

/-- The request that a call waits for the answer of. -/
def awaited (call : Call) : Option ℕ :=
  match call.stage with
  | .trying (.reached request) | .renewing (.reached request) | .retrying (.reached request) =>
    some request
  | .trying (.sent _) | .renewing (.sent _) | .retrying (.sent _) | .settled _ => none

/-- Where a call goes on with an answer. -/
def resumed (call : Call) (status : ℕ) (cookie : Option Sessions.Token) : Stage :=
  match call.stage with
  | .trying _ => if status = 401 then .renewing (.sent cookie) else .settled status
  -- Without a new session, the first answer stands.
  | .renewing _ => if isOk status then .retrying (.sent cookie) else .settled 401
  | .retrying _ => .settled status
  | .settled status => .settled status

def next (w : World) : Label → Option World
  | .server label => (w.server.next settings verify passwordStamp label).map fun server ↦
      { w with server }
  | .starts minimum cookie =>
    some { w with calls := w.calls ++ [{ minimum, stage := .trying (.sent cookie) }] }
  | .delivered c => (w.calls[c]?).bind (w.delivered settings verify passwordStamp c)
  | .answered c status cookie =>
    match w.calls[c]? with
    | none => none
    | some call =>
      match (awaited call).bind fun request ↦ w.server.requests[request]? with
      | some (.done reply) =>
        if answers reply status && !call.gaveUp then
          some (w.goes c { call with stage := resumed call status cookie })
        else none
      | _ => none
  | .rejected c => (w.calls[c]?).map fun call ↦ w.goes c { call with gaveUp := true }

end World

/-! ## What the server keeps -/

variable {settings : Sessions.Settings} {verify : String → String → Bool}
  {passwordStamp : String → String}

/-- A request that has its reply keeps it, and no refusal looks like a success. -/
structure Kept (s s' : Sessions.Server) : Prop where
  done : ∀ {r : ℕ} {reply : Sessions.Reply}, s.requests[r]? = some (.done reply) →
    s'.requests[r]? = some (.done reply)
  refused : ∀ {r code : ℕ} {detail : String},
    s'.requests[r]? = some (.done (.refused code detail)) →
      s.requests[r]? = some (.done (.refused code detail)) ∨ 400 ≤ code

namespace Kept

variable {s s' : Sessions.Server} {i : ℕ} {stage stage' : Sessions.Stage}

theorem of_same (h : s'.requests = s.requests) : Kept s s' where
  done hr := h ▸ hr
  refused hr := .inl (h ▸ hr)

/-- A stage that may be entered: no reply, or one that is no success. -/
def Entered (stage : Sessions.Stage) : Prop :=
  ∀ code detail, stage = .done (.refused code detail) → 400 ≤ code

theorem of_set (h : s'.requests = s.requests.set i stage') (hi : s.requests[i]? = some stage)
    (hstage : ∀ reply, stage ≠ .done reply) (hentered : Entered stage') : Kept s s' where
  done {r reply} hr := by
    have hne : i ≠ r := by
      rintro rfl
      exact hstage reply (Option.some.inj (hi.symm.trans hr))
    rw [h, List.getElem?_set_ne hne, hr]
  refused {r code detail} hr := by
    rw [h] at hr
    by_cases hir : i = r
    · subst hir
      rw [List.getElem?_set_self (List.getElem?_eq_some_iff.mp hi).1, Option.some.injEq] at hr
      exact .inr (hentered code detail hr)
    · rw [List.getElem?_set_ne hir] at hr
      exact .inl hr

theorem of_append (h : s'.requests = s.requests ++ [stage]) (hentered : Entered stage) :
    Kept s s' where
  done {r reply} hr := by
    rw [h, List.getElem?_append_left (List.getElem?_eq_some_iff.mp hr).1, hr]
  refused {r code detail} hr := by
    rw [h, List.getElem?_append] at hr
    split at hr
    · exact .inl hr
    · exact .inr (hentered code detail (List.mem_singleton.mp (List.mem_of_getElem? hr)).symm)

variable {login password : String} {token : Sessions.Token} {claims : Sessions.Claims}

theorem entered_of_ne (h : ∀ reply, stage ≠ .done reply) : Entered stage :=
  fun code detail heq ↦ absurd heq (h (.refused code detail))

theorem presents {cookie : Option Sessions.Token} {kind : Sessions.TokenKind} {detail : String}
    {next : Sessions.Token → Sessions.Claims → Sessions.Stage}
    (hnext : ∀ token claims reply, next token claims ≠ .done reply) :
    Kept s (s.presents settings cookie kind detail next) ∧
      (s.presents settings cookie kind detail next).requests.length = s.requests.length + 1 := by
  rw [Sessions.Server.presents]
  split
  · exact ⟨of_append rfl (by simp [Entered]), List.length_append⟩
  · split
    · next token claims _ =>
      exact ⟨of_append rfl (entered_of_ne (hnext token claims)), List.length_append⟩
    · exact ⟨of_append rfl (by simp [Entered]), List.length_append⟩

theorem setCookies {s₁ : Sessions.Server} {id : Uuid} {stamp : String}
    (h : s.setCookies settings id stamp = some s₁) : s₁.requests = s.requests := by
  obtain ⟨secret, -, rfl⟩ := Option.map_eq_some_iff.mp h
  rfl

theorem selected (hi : s.requests[i]? = some (.selecting login password)) :
    Kept s (s.selected verify i login password) := by
  rw [Sessions.Server.selected]
  split
  · split
    · exact of_set rfl hi (by simp) (by simp [Entered])
    · exact of_set rfl hi (by simp) (by simp [Entered])
  · exact of_set rfl hi (by simp) (by simp [Entered])

theorem logged {user : UserRow} (hi : s.requests[i]? = some (.granted user)) :
    Kept s (s.logged settings passwordStamp i user) := by
  rw [Sessions.Server.logged]
  split
  · next s₁ hset =>
    exact of_set (by rw [Sessions.Server.goes, setCookies hset]) hi (by simp) (by simp [Entered])
  · exact of_set rfl hi (by simp) (by simp [Entered])

theorem refreshed (hi : s.requests[i]? = some (.refreshing token claims)) :
    Kept s (s.refreshed settings passwordStamp i token claims) := by
  rw [Sessions.Server.refreshed]
  split
  · exact of_set rfl hi (by simp) (by simp [Entered])
  · split
    · next s₁ hset =>
      have hrequests := setCookies hset
      exact of_set (by rw [Sessions.Server.records, Sessions.Server.goes, hrequests]) hi (by simp)
        (by simp [Entered])
    · exact of_set rfl hi (by simp) (by simp [Entered])

theorem authorized {minimum : Option RoleName}
    (hi : s.requests[i]? = some (.authorizing token claims minimum)) :
    Kept s (s.authorized passwordStamp i token claims minimum) := by
  rw [Sessions.Server.authorized]
  split
  · exact of_set rfl hi (by simp) (by simp [Entered])
  · split
    · exact of_set rfl hi (by simp) (by simp [Entered])
    · exact of_set rfl hi (by simp) (by simp [Entered])

theorem accepted (hi : s.requests[i]? = some (.connecting token claims)) :
    Kept s (s.accepted passwordStamp i token claims) := by
  rw [Sessions.Server.accepted]
  split
  · exact of_set rfl hi (by simp) (by simp [Entered])
  · exact of_set rfl hi (by simp) (by simp [Entered])

theorem resumed (h : s.resumed settings verify passwordStamp i = some s') : Kept s s' := by
  rw [Sessions.Server.resumed] at h
  split at h
  · next hi =>
    obtain rfl := Option.some.inj h
    exact selected hi
  · next hi =>
    obtain rfl := Option.some.inj h
    exact logged hi
  · next hi =>
    obtain rfl := Option.some.inj h
    exact of_set rfl hi (by simp) (by simp [Entered])
  · next hi =>
    obtain rfl := Option.some.inj h
    exact refreshed hi
  · next hi =>
    obtain rfl := Option.some.inj h
    exact authorized hi
  · next hi =>
    obtain rfl := Option.some.inj h
    exact accepted hi
  · exact absurd h (by simp)
  · exact absurd h (by simp)
  · exact absurd h (by simp)

theorem pumped (h : s.pumped i = some s') : Kept s s' := by
  rw [Sessions.Server.pumped] at h
  split at h
  · split at h
    · exact absurd h (by simp)
    split at h
    · obtain rfl := Option.some.inj h
      exact of_same rfl
    · obtain rfl := Option.some.inj h
      exact of_same rfl
  · exact absurd h (by simp)

/-- **Whatever the server does.** -/
theorem of_next {label : Sessions.Label}
    (h : s.next settings verify passwordStamp label = some s') : Kept s s' := by
  cases label with
  | elapses d =>
    rw [Sessions.Server.next] at h
    split at h
    · obtain rfl := Option.some.inj h
      exact of_same rfl
    · exact absurd h (by simp)
  | writes change =>
    obtain rfl := Option.some.inj h
    exact of_same rfl
  | logsIn login password =>
    obtain rfl := Option.some.inj h
    exact of_append rfl (by simp [Entered])
  | refreshes cookie =>
    obtain rfl := Option.some.inj h
    exact (presents (by simp)).1
  | asks cookie minimum =>
    obtain rfl := Option.some.inj h
    exact (presents (by simp)).1
  | connects cookie =>
    obtain rfl := Option.some.inj h
    exact (presents (by simp)).1
  | checked i locked =>
    rw [Sessions.Server.next] at h
    split at h
    · next hi =>
      obtain rfl := Option.some.inj h
      refine of_set rfl hi (by simp) ?_
      split <;> simp [Entered]
    · exact absurd h (by simp)
  | resumed i => exact resumed h
  | raises i =>
    rw [Sessions.Server.next] at h
    split at h
    · exact absurd h (by simp)
    · exact absurd h (by simp)
    · next stage hnot hi =>
      obtain rfl := Option.some.inj h
      exact of_set rfl hi hnot (by simp [Entered])
  | pumped i => exact pumped h

end Kept

/-! ## What the server has done of a call -/

/-- The user was let in, and the handler ran. -/
def ran (s : Sessions.Server) (r : ℕ) : Bool :=
  match s.requests[r]? with
  | some (.done (.ok _)) => true
  | _ => false

/-- The session was refused. -/
def Refused (s : Sessions.Server) (r : ℕ) : Prop :=
  ∃ detail, s.requests[r]? = some (.done (.refused 401 detail))

theorem not_ran_of_refused {s : Sessions.Server} {r : ℕ} (h : Refused s r) : ran s r = false := by
  obtain ⟨detail, hr⟩ := h
  rw [ran, hr]

theorem countP_refused {s : Sessions.Server} {tries : List ℕ} (h : ∀ r ∈ tries, Refused s r) :
    tries.countP (ran s) = 0 :=
  List.countP_eq_zero.mpr fun r hr ↦ by simp [not_ran_of_refused (h r hr)]

/-- The tries of a call: those that were refused, and the others. -/
def Fits (s : Sessions.Server) (refused rest : List ℕ) : Stage → Prop
  | .trying (.sent _) => refused = [] ∧ rest = []
  | .trying (.reached request) => refused = [] ∧ rest = [request]
  | .renewing _ | .retrying (.sent _) => refused.length = 1 ∧ rest = []
  | .retrying (.reached request) => refused.length = 1 ∧ rest = [request]
  | .settled status => refused.length ≤ 1 ∧ rest.length ≤ 1 ∧
      (status = 401 → ∀ r ∈ rest, Refused s r) ∧ (isOk status → ∃ r, rest = [r] ∧ ran s r)

/-- What the tries of a call have come to. -/
def Sound (s : Sessions.Server) (call : Call) : Prop :=
  ∃ refused rest, call.tried = refused ++ rest ∧ (∀ r ∈ refused, Refused s r) ∧
    Fits s refused rest call.stage

/-- What holds of the calls and of the server at every moment. -/
structure Valid (w : World) : Prop where
  calls : ∀ call ∈ w.calls, Sound w.server call
  polite : ∀ (r code : ℕ) (detail : String),
    w.server.requests[r]? = some (.done (.refused code detail)) → 400 ≤ code

section

variable {s s' : Sessions.Server} {w w' : World} {call : Call} {c r status : ℕ}
  {cookie : Option Sessions.Token}

theorem Refused.kept (h : Refused s r) (hs : Kept s s') : Refused s' r := by
  obtain ⟨detail, hr⟩ := h
  exact ⟨detail, hs.done hr⟩

theorem ran_kept (h : ran s r) (hs : Kept s s') : ran s' r := by
  rw [ran] at h
  split at h
  · next hr => rw [ran, hs.done hr]
  · exact absurd h (by simp)

theorem Fits.kept {refused rest : List ℕ} {stage : Stage} (h : Fits s refused rest stage)
    (hs : Kept s s') : Fits s' refused rest stage := by
  cases stage with
  | trying fetch => cases fetch <;> exact h
  | renewing fetch => exact h
  | retrying fetch => cases fetch <;> exact h
  | settled status =>
    obtain ⟨hrefused, hrest, h401, hok⟩ := h
    refine ⟨hrefused, hrest, fun hstatus r hr ↦ (h401 hstatus r hr).kept hs, fun hstatus ↦ ?_⟩
    obtain ⟨r, hr, hran⟩ := hok hstatus
    exact ⟨r, hr, ran_kept hran hs⟩

theorem Sound.kept (h : Sound s call) (hs : Kept s s') : Sound s' call := by
  obtain ⟨refused, rest, htried, hrefused, hfits⟩ := h
  exact ⟨refused, rest, htried, fun r hr ↦ (hrefused r hr).kept hs, hfits.kept hs⟩

theorem Valid.kept (h : Valid w) (hs : Kept w.server s') : Valid { w with server := s' } where
  calls call hcall := (h.calls call hcall).kept hs
  polite r code detail hr := (hs.refused hr).elim (h.polite r code detail) id

theorem Valid.goes (h : Valid w) (hcall : Sound w.server call) : Valid (w.goes c call) where
  calls call' hcall' := by
    rcases List.mem_or_eq_of_mem_set hcall' with hold | rfl
    · exact h.calls call' hold
    · exact hcall
  polite := h.polite

theorem sound_init (s : Sessions.Server) (minimum : Option RoleName)
    (cookie : Option Sessions.Token) : Sound s { minimum, stage := .trying (.sent cookie) } :=
  ⟨[], [], rfl, by simp, rfl, rfl⟩

/-- A call that has nothing to do with answers any more is as sound as before. -/
theorem Sound.gaveUp (h : Sound s call) : Sound s { call with gaveUp := true } := h

/-! ## One step -/

theorem Valid.delivered (h : Valid w) (hc : call ∈ w.calls)
    (hstep : w.delivered settings verify passwordStamp c call = some w') : Valid w' := by
  have hsound := h.calls call hc
  obtain ⟨refused, rest, htried, hrefused, hfits⟩ := hsound
  rw [World.delivered] at hstep
  split at hstep
  · next cookie hstage =>
    obtain ⟨s', hs', rfl⟩ := Option.map_eq_some_iff.mp hstep
    have hkept := Kept.of_next hs'
    rw [hstage] at hfits
    obtain ⟨rfl, rfl⟩ := hfits
    refine (h.kept hkept).goes ⟨[], [w.server.requests.length], ?_, by simp, rfl, rfl⟩
    rw [htried]
    rfl
  · next cookie hstage =>
    obtain ⟨s', hs', rfl⟩ := Option.map_eq_some_iff.mp hstep
    have hkept := Kept.of_next hs'
    rw [hstage] at hfits
    exact (h.kept hkept).goes
      ⟨refused, rest, htried, fun r hr ↦ (hrefused r hr).kept hkept, hfits⟩
  · next cookie hstage =>
    obtain ⟨s', hs', rfl⟩ := Option.map_eq_some_iff.mp hstep
    have hkept := Kept.of_next hs'
    rw [hstage] at hfits
    obtain ⟨hlength, rfl⟩ := hfits
    refine (h.kept hkept).goes ⟨refused, [w.server.requests.length], ?_,
      fun r hr ↦ (hrefused r hr).kept hkept, hlength, rfl⟩
    rw [htried, List.append_nil]
  all_goals exact absurd hstep (by simp)

/-- A reply that may be read as a 401 is a refusal of the session; one that may be read as a success
has run the handler. -/
theorem read_reply {reply : Sessions.Reply} (hpolite : ∀ (r code : ℕ) (detail : String),
      s.requests[r]? = some (.done (.refused code detail)) → 400 ≤ code)
    (hr : s.requests[r]? = some (.done reply)) (hanswers : answers reply status) :
    (status = 401 → Refused s r) ∧ (isOk status → ran s r) := by
  cases reply with
  | ok user =>
    refine ⟨fun h401 ↦ ?_, fun _ ↦ by rw [ran, hr]⟩
    simp [answers, h401] at hanswers
  | refused code detail =>
    have hcode : status = code := of_decide_eq_true hanswers
    have hle := hpolite r code detail hr
    refine ⟨fun h401 ↦ ⟨detail, by rw [hr, ← hcode, h401]⟩, fun hok ↦ ?_⟩
    simp only [isOk, Bool.and_eq_true, decide_eq_true_eq] at hok
    omega
  | failed =>
    have hcode : status = 500 := of_decide_eq_true hanswers
    subst hcode
    simp [isOk]

theorem Sound.resumed {reply : Sessions.Reply} (h : Sound s call)
    (hpolite : ∀ (r code : ℕ) (detail : String),
      s.requests[r]? = some (.done (.refused code detail)) → 400 ≤ code)
    (hawaited : World.awaited call = some r) (hr : s.requests[r]? = some (.done reply))
    (hanswers : answers reply status) :
    Sound s { call with stage := World.resumed call status cookie } := by
  obtain ⟨refused, rest, htried, hrefused, hfits⟩ := h
  obtain ⟨h401, hok⟩ := read_reply hpolite hr hanswers
  rw [World.awaited] at hawaited
  split at hawaited
  · next request hstage =>
    obtain rfl := Option.some.inj hawaited
    rw [hstage] at hfits
    obtain ⟨rfl, rfl⟩ := hfits
    by_cases hstatus : status = 401
    · refine ⟨[request], [], htried, fun r hr ↦ ?_, ?_⟩
      · rw [List.mem_singleton.mp hr]
        exact h401 hstatus
      · simp [World.resumed, hstage, hstatus, Fits]
    · refine ⟨[], [request], htried, by simp, ?_⟩
      simpa [World.resumed, hstage, hstatus, Fits] using hok
  · next request hstage =>
    rw [hstage] at hfits
    obtain ⟨hlength, rfl⟩ := hfits
    refine ⟨refused, [], htried, hrefused, ?_⟩
    simp only [World.resumed, hstage]
    split
    · exact ⟨hlength, rfl⟩
    · exact ⟨hlength.le, by simp, by simp, by simp [isOk]⟩
  · next request hstage =>
    obtain rfl := Option.some.inj hawaited
    rw [hstage] at hfits
    obtain ⟨hlength, rfl⟩ := hfits
    refine ⟨refused, [request], htried, hrefused, ?_⟩
    simp only [World.resumed, hstage]
    refine ⟨hlength.le, by simp, fun hstatus r hr ↦ ?_, fun hstatus ↦ ⟨request, rfl, hok hstatus⟩⟩
    rw [List.mem_singleton.mp hr]
    exact h401 hstatus
  all_goals exact absurd hawaited (by simp)

/-- **One step.** -/
theorem Valid.step {label : Label} (h : Valid w)
    (hstep : w.next settings verify passwordStamp label = some w') : Valid w' := by
  cases label with
  | server label =>
    obtain ⟨s', hs', rfl⟩ := Option.map_eq_some_iff.mp hstep
    exact h.kept (Kept.of_next hs')
  | starts minimum cookie =>
    obtain rfl := Option.some.inj hstep
    refine ⟨fun call hcall ↦ ?_, h.polite⟩
    rcases List.mem_append.mp hcall with hold | hnew
    · exact h.calls call hold
    · rw [List.mem_singleton.mp hnew]
      exact sound_init ..
  | delivered c =>
    obtain ⟨call, hcall, hstep⟩ := Option.bind_eq_some_iff.mp hstep
    exact h.delivered (List.mem_of_getElem? hcall) hstep
  | answered c status cookie =>
    rw [World.next] at hstep
    split at hstep
    · exact absurd hstep (by simp)
    · next call hcall =>
      split at hstep
      · next reply hreply =>
        obtain ⟨request, hawaited, hr⟩ := Option.bind_eq_some_iff.mp hreply
        split at hstep
        · next hcond =>
          rw [Bool.and_eq_true] at hcond
          obtain rfl := Option.some.inj hstep
          exact h.goes ((h.calls call (List.mem_of_getElem? hcall)).resumed h.polite hawaited hr
            hcond.1)
        · exact absurd hstep (by simp)
      · exact absurd hstep (by simp)
  | rejected c =>
    obtain ⟨call, hcall, rfl⟩ := Option.map_eq_some_iff.mp hstep
    exact h.goes (h.calls call (List.mem_of_getElem? hcall)).gaveUp

/-- No call has been made, and the server has replied to nobody. -/
def World.Fresh (w : World) : Prop := w.calls = [] ∧ w.server.requests = []

theorem valid_of_fresh (h : w.Fresh) : Valid w where
  calls := by simp [h.1]
  polite := by simp [h.2]

/-- **What is asked for is done at most once.** Whatever is lost, refused or interleaved, the server
makes at most two requests of a call, and runs the handler for at most one of them: for exactly one
when the call succeeds, and for none when it ends with a 401. -/
theorem handled_once {w₀ : World} {labels : List Label} (hw : w₀.Fresh)
    (hrun : Trace.Path (fun w label w' ↦ w.next settings verify passwordStamp label = some w')
      w₀ labels w) (hcall : call ∈ w.calls) :
    call.tried.length ≤ 2 ∧ call.tried.countP (ran w.server) ≤ 1 ∧
      ∀ status, call.stage = .settled status →
        (isOk status → call.tried.countP (ran w.server) = 1) ∧
        (status = 401 → call.tried.countP (ran w.server) = 0) := by
  have hvalid : Valid w :=
    hrun.invariant Valid (fun h hstep ↦ h.step hstep) (valid_of_fresh hw)
  obtain ⟨refused, rest, htried, hrefused, hfits⟩ := hvalid.calls call hcall
  have hcount : call.tried.countP (ran w.server) = rest.countP (ran w.server) := by
    rw [htried, List.countP_append, countP_refused hrefused, zero_add]
  have hlengths : refused.length ≤ 1 ∧ rest.length ≤ 1 := by
    cases hstage : call.stage with
    | trying fetch =>
      rw [hstage] at hfits
      cases fetch <;> simp [hfits.1, hfits.2]
    | renewing fetch =>
      rw [hstage] at hfits
      exact ⟨hfits.1.le, by simp [hfits.2]⟩
    | retrying fetch =>
      rw [hstage] at hfits
      cases fetch <;> exact ⟨hfits.1.le, by simp [hfits.2]⟩
    | settled status =>
      rw [hstage] at hfits
      exact ⟨hfits.1, hfits.2.1⟩
  rw [hcount]
  refine ⟨?_, List.countP_le_length.trans hlengths.2, fun status hstage ↦ ?_⟩
  · rw [htried, List.length_append]
    omega
  · rw [hstage] at hfits
    obtain ⟨-, -, h401, hok⟩ := hfits
    refine ⟨fun hstatus ↦ ?_, fun hstatus ↦ countP_refused (h401 hstatus)⟩
    obtain ⟨r, rfl, hran⟩ := hok hstatus
    simp [hran]

end

/-! ## A session that has expired -/

section

open Sessions (oneUser signed verifyPlain plainStamp accessOf)

/-- The access token of a login has expired when a call presents it; the session is renewed. -/
def expired : List Label :=
  [.server (.logsIn "ana" "chaudière"), .server (.checked 0 false), .server (.resumed 0),
    .server (.resumed 0), .server (.elapses 1000),
    .starts (some .operator) (some (accessOf Sessions.ana 0)), .delivered 0,
    .answered 0 401 (some (Sessions.createToken "abcdefghijklmnopqrstuvwxyz012345" 1 .refresh
      (signed.ttl .refresh) 0 "argon2:chaudière")),
    .delivered 0, .server (.resumed 2), .answered 0 200 (some (accessOf Sessions.ana 1000)),
    .delivered 0, .server (.resumed 3), .answered 0 200 none]

theorem handled_once_expired : ∃ (w : World) (call : Call), w.calls = [call] ∧ call.tried = [1, 3] ∧
    call.tried.countP (ran w.server) = 1 := by
  have hends : (Trace.exec (World.next signed verifyPlain plainStamp) { server := oneUser }
      expired).map (fun w ↦ w.calls.map fun call ↦ (call.tried, match call.stage with
        | .settled status => some status
        | _ => none)) = some [([1, 3], some 200)] := by decide +kernel
  obtain ⟨w, hw, hends⟩ := Option.map_eq_some_iff.mp hends
  obtain ⟨call, hcalls, hcall⟩ := List.map_eq_singleton_iff.mp hends
  rw [Prod.mk.injEq] at hcall
  obtain ⟨htried, hstatus⟩ := hcall
  obtain ⟨-, -, hsettled⟩ := handled_once ⟨rfl, rfl⟩ (.of_exec_next hw)
    (hcalls ▸ List.mem_singleton_self call)
  refine ⟨w, call, hcalls, htried, ?_⟩
  cases hstage : call.stage with
  | settled status =>
    rw [hstage] at hstatus
    obtain rfl := Option.some.inj hstatus
    exact (hsettled 200 hstage).1 rfl
  | trying fetch => simp [hstage] at hstatus
  | renewing fetch => simp [hstage] at hstatus
  | retrying fetch => simp [hstage] at hstatus

end

end Superviseur.ApiClient
