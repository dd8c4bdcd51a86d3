import Superviseur.Front.AppShell

/-!
# The page shown is the page asked for

Once nothing is pending, the shell shows one page, the one of the address for the user it knows, and
the pages mounted before have been destroyed once each. This holds in every run whose steps are
harmless (`upright_of_path`). Three kinds of steps are not:

- `destroy` comes while the latest call of `show` is pending: it does not count as a later call, and
  what is answered to the pending one is mounted;
- an editor that was replaced, or is about to be, sets the address with `onSaved` and has the
  notification dropped, while another page is shown for the former address;
- a call of `show` that was superseded writes the user it was answered, when a page is shown, or the
  latest call has read the user already.
-/

namespace Superviseur

namespace AppShell

/-! ## What is right -/

/-- The page is that of the route for the user. Without a user, it is the login page, or the note
that the session could not be checked. -/
def Suits (user : Option SessionUser) (route : Route) : Page → Prop
  | .login | .unreachable => user = none
  | .admin u => user = some u ∧ route = .admin ∧ u.role = adminRole
  | .adminDenied u => user = some u ∧ route = .admin ∧ u.role ≠ adminRole
  | .list u => user = some u ∧ route = .list
  | .viewer slug _ canEdit u => user = some u ∧ route = .view slug ∧ canEdit = u.canEdit
  | .editor slug record role => route = .edit slug ∧ record.isSome = slug.isSome ∧
      ∃ u, user = some u ∧ u.role = role ∧ u.canEdit = true
  | .editDenied slug user' => route = .edit slug ∧ user' = user ∧
      ∃ u, user = some u ∧ u.canEdit = false
  | .notFound slug _ user' => user' = user ∧ user.isSome = true ∧
      ∃ asked, slug = some asked ∧ (route = .view asked ∨ route = .edit (some asked))
  | .bare => False

variable (s : AppShell)

/-- The page is alone in the root, and its instance, if it has one, is the current one. -/
def Displays (page : Page) : Prop :=
  s.root = [page] ∧
    if page.hasInstance then ∃ id, s.current = some id ∧ s.mounted[id]? = some page
    else s.current = none

/-- The page is an editor whose save set the address to this route. -/
def SavedTo (user : Option SessionUser) (route : Route) (page : Page) : Prop :=
  ∃ id target, s.current = some id ∧ (id, target) ∈ s.saves ∧ Route.parse target = route ∧
    ∃ slug record u, page = .editor slug record u.role ∧ user = some u

/-- The page shown is right for the user and the route. -/
def Shows (user : Option SessionUser) (route : Route) : Prop :=
  ∃ page, s.Displays page ∧ (Suits user route page ∨ s.SavedTo user route page)

/-- Nothing is pending: no notification, and no call of `show`. -/
def Idle : Prop := s.changes = 0 ∧ ∀ run ∈ s.runs, run.stage = .ended

/-- **The page shown is the page asked for.** -/
structure Upright : Prop where
  /-- Every page that is not shown any more was destroyed once. -/
  once : ∀ id < s.mounted.length, s.torn.count id = if s.current = some id then 0 else 1
  shown : s.destroyed = false → s.Idle → s.Shows s.user (Route.parse s.hash)
  /-- Nothing is mounted after `destroy`. -/
  gone : s.destroyed = true → s.current = none

/-! ## Harmless steps -/

/-- A notification that is on its way will call `show`. -/
def WillShow : Prop :=
  0 < s.changes ∧ ∀ silent, s.silentHash = some silent → s.hash ≠ silent ∨ 1 < s.changes

/-- The latest call of `show`. -/
def latest : Option Run := s.runs.getLast?

/-- A call of `show` that was superseded is answered this user: it is the one that the shell has, or
has the rights that the latest call has read, unless this one has not read any user yet. -/
def Takes (user : SessionUser) : Prop :=
  ∀ run ∈ s.latest,
    match run.stage with
    | .checking | .checked _ => True
    | .loading canEdit => user.canEdit = canEdit
    | .ended => s.user = some user

/-- The address may become `target` without a call of `show`: it is of the same route; or no call is
pending, and the instance is the current one, or there is no session. -/
def Stays (id : ℕ) (target : String) : Prop :=
  Route.parse target = Route.parse s.hash ∨
    ∀ run ∈ s.latest, run.stage = .ended ∧ (s.current = some id ∨ s.user = none)

def Harmless : Label → Prop
  | .answered i (.user user) =>
    s.destroyed = true ∨ s.Latest i ∨ s.WillShow ∨ s.Takes user
  | .resumed i => ∀ route verdict, s.runs[i]? = some ⟨route, .checked verdict⟩ → s.Latest i →
    match verdict with
    | .signedIn => True
    | .signedOut => s.user = none ∨ (s.askLogin route).WillShow
    | .failed => s.user = none ∨ s.WillShow
  | .saved id record =>
    s.destroyed = true ∨ s.hash = target record ∨ 0 < s.changes ∨ s.Stays id (target record)
  | .destroy => ∀ run ∈ s.latest, run.stage = .ended
  | _ => True

/-! ## The invariant -/

/-- What is known of the instances. -/
structure Kept : Prop where
  known : ∀ id, s.current = some id → id < s.mounted.length
  tornKnown : ∀ id ∈ s.torn, id < s.mounted.length
  once : ∀ id < s.mounted.length, s.torn.count id = if s.current = some id then 0 else 1

/-- The call of `show` is for the address, and what it shows, or has read, is right. -/
def Right (run : Run) : Prop :=
  match run.stage with
  | .checking | .checked _ => run.route = Route.parse s.hash
  | .loading canEdit => run.route = Route.parse s.hash ∧
      ∃ user, s.user = some user ∧ user.canEdit = canEdit
  | .ended => s.Shows s.user (Route.parse s.hash)

/-- What is known of the latest call of `show` in any case. -/
def Coherent (run : Run) : Prop :=
  match run.stage with
  | .checked .signedIn => s.user.isSome = true
  | .loading _ => s.user.isSome = true ∧ s.root = [] ∧ s.current = none ∧
      ∃ slug, run.route = .view slug ∨ run.route = .edit (some slug)
  | _ => True

/-- The shell before `destroy`. -/
structure Live : Prop where
  silent : ∀ silent, s.silentHash = some silent → 0 < s.changes ∧ silent ≠ Route.list.href
  coherent : ∀ run ∈ s.latest, s.Coherent run
  ready : s.WillShow ∨ ∃ run ∈ s.latest, s.Right run

/-- After `destroy`, nothing is mounted and nothing will be. -/
structure Gone : Prop where
  current : s.current = none
  ended : ∀ run ∈ s.latest, run.stage = .ended

structure Sound : Prop where
  kept : s.Kept
  live : s.destroyed = false → s.Live
  gone : s.destroyed = true → s.Gone

section

variable {s : AppShell} {i id : ℕ} {run : Run} {page : Page} {route : Route} {hash : String}

/-! ## Runs of `show` -/

theorem latest_setStage (hrun : s.runs[i]? = some run) (hlatest : s.Latest i) (stage : Stage) :
    (s.setStage i stage).latest = some { run with stage := stage } := by
  have hlast : s.runs.length - 1 = i := by
    rw [← hlatest]
    rfl
  rw [latest, setStage, List.getLast?_eq_getElem?, List.length_modify, hlast,
    List.getElem?_modify_eq, hrun]
  rfl

theorem latest_setStage_of_not (h : ¬ s.Latest i) (stage : Stage) :
    (s.setStage i stage).latest = s.latest := by
  rw [latest, latest, setStage, List.getLast?_eq_getElem?, List.getLast?_eq_getElem?,
    List.length_modify]
  by_cases hempty : s.runs = []
  · simp [hempty]
  · have hpos := List.length_pos_iff.mpr hempty
    refine List.getElem?_modify_ne _ _ ?_
    rw [Latest] at h
    omega

theorem latest_eq (hrun : s.runs[i]? = some run) (hlatest : s.Latest i) : s.latest = some run := by
  rw [latest, List.getLast?_eq_getElem?, ← hlatest]
  exact hrun

theorem show_eq (h : s.destroyed = false) : s.show = { s with
    runs := s.runs ++ [⟨Route.parse s.hash,
      if s.user.isSome then .checked .signedIn else .checking⟩] } := by
  rw [«show», if_neg (by simp [h])]

theorem live_of_latest (hlast : s.latest = some run)
    (hsilent : ∀ silent, s.silentHash = some silent → 0 < s.changes ∧ silent ≠ Route.list.href)
    (hcoherent : s.Coherent run) (hright : s.WillShow ∨ s.Right run) : s.Live where
  silent := hsilent
  coherent run' hrun := by
    rw [hlast, Option.mem_some_iff] at hrun
    rw [← hrun]
    exact hcoherent
  ready := hright.imp_right fun hright ↦ ⟨run, hlast, hright⟩

theorem Live.right (h : s.Live) (hlast : s.latest = some run) : s.WillShow ∨ s.Right run := by
  refine h.ready.imp_right fun ⟨run', hrun, hright⟩ ↦ ?_
  rw [hlast, Option.mem_some_iff] at hrun
  rw [hrun]
  exact hright

/-! ## Instances -/

theorem Kept.clear (h : s.Kept) : s.clear.Kept where
  known _ hid := by cases hid
  tornKnown id hid := by
    rcases List.mem_append.mp hid with hid | hid
    · exact h.tornKnown id hid
    · exact h.known id (Option.mem_toList.mp hid)
  once id hid := by
    have honce := h.once id hid
    change (s.torn ++ s.current.toList).count id = if none = some id then 0 else 1
    rw [List.count_append, honce]
    cases hcurrent : s.current with
    | none => simp
    | some id' =>
      by_cases heq : id' = id
      · simp [heq]
      · simp [heq]

theorem Kept.put (h : s.Kept) (hcurrent : s.current = none) (page : Page) : (s.put page).Kept := by
  rw [AppShell.put]
  split
  · refine ⟨?_, ?_, ?_⟩
    · rintro id ⟨⟩
      simp
    · intro id hid
      have := h.tornKnown id hid
      simp only [List.length_append, List.length_singleton]
      omega
    · intro id hid
      simp only [List.length_append, List.length_singleton] at hid
      rcases Nat.lt_succ_iff_lt_or_eq.mp hid with hid | rfl
      · have honce := h.once id hid
        rw [hcurrent] at honce
        have hne : s.mounted.length ≠ id := by omega
        simpa [hne] using honce
      · -- the new page is not destroyed yet
        have hnew : s.mounted.length ∉ s.torn := fun hmem ↦ lt_irrefl _ (h.tornKnown _ hmem)
        simpa using List.count_eq_zero_of_not_mem hnew
  · exact ⟨h.known, h.tornKnown, h.once⟩

theorem displays_put (hroot : s.root = []) (hcurrent : s.current = none) (page : Page) :
    (s.put page).Displays page := by
  rw [AppShell.put]
  split
  · rename_i hinstance
    refine ⟨by simp [hroot], ?_⟩
    rw [if_pos hinstance]
    exact ⟨s.mounted.length, rfl, List.getElem?_concat_length⟩
  · rename_i hinstance
    refine ⟨by simp [hroot], ?_⟩
    rw [if_neg hinstance]
    exact hcurrent

/-! ## Notifications -/

theorem setHash_self (s : AppShell) : s.setHash s.hash = s := by
  rw [setHash, if_pos rfl]

theorem willShow_of_two (h : 1 < s.changes) : s.WillShow := ⟨by omega, fun _ _ ↦ .inr h⟩

/-- Another address is notified, and the notification is not dropped if it is not the first. -/
theorem willShow_setHash (hsilent : ∀ silent, s.silentHash = some silent → 0 < s.changes)
    (hne : hash ≠ s.hash) : (s.setHash hash).WillShow := by
  have hchanges : (s.setHash hash).changes = s.changes + 1 := if_neg hne
  refine ⟨by omega, fun silent hsome ↦ .inr ?_⟩
  have := hsilent silent hsome
  omega

theorem changes_le_setHash (s : AppShell) (hash : String) :
    s.changes ≤ (s.setHash hash).changes := by
  change s.changes ≤ if hash = s.hash then s.changes else s.changes + 1
  split <;> omega

/-! ## The steps before `destroy` -/

theorem Live.setHash (h : s.Live) (hash : String) : (s.setHash hash).Live := by
  by_cases hne : hash = s.hash
  · rw [hne, setHash_self]
    exact h
  · refine ⟨fun silent hsilent ↦ ?_, h.coherent, .inl ?_⟩
    · obtain ⟨hpos, hlist⟩ := h.silent silent hsilent
      exact ⟨hpos.trans_le (changes_le_setHash s hash), hlist⟩
    · exact willShow_setHash (fun silent hsilent ↦ (h.silent silent hsilent).1) hne

theorem live_show (hlive : s.destroyed = false)
    (hsilent : ∀ silent, s.silentHash = some silent → 0 < s.changes ∧ silent ≠ Route.list.href) :
    s.show.Live := by
  rw [show_eq hlive]
  refine live_of_latest List.getLast?_concat hsilent ?_ (.inr ?_)
  · rw [Coherent]
    cases s.user with
    | none => trivial
    | some user => exact Option.isSome_some
  · cases s.user <;> rfl

theorem Live.notified (h : s.Live) (hlive : s.destroyed = false) : s.notified.Live := by
  rw [AppShell.notified, if_neg (by simp [hlive])]
  split
  · -- the notification is dropped
    rename_i hsilent
    refine ⟨nofun, h.coherent, ?_⟩
    rcases h.ready with hshow | hready
    · rcases hshow.2 s.hash hsilent with hne | htwo
      · exact absurd rfl hne
      · exact .inl ⟨Nat.sub_pos_of_lt htwo, nofun⟩
    · exact .inr hready
  · exact live_show hlive nofun

theorem Live.setStage_of_not (h : s.Live) (hnot : ¬ s.Latest i) (stage : Stage) :
    (s.setStage i stage).Live := by
  have hlatest := latest_setStage_of_not hnot stage
  refine ⟨h.silent, fun run hrun ↦ ?_, h.ready.imp_right ?_⟩
  · rw [hlatest] at hrun
    exact h.coherent run hrun
  · rintro ⟨run, hrun, hstage⟩
    exact ⟨run, hlatest ▸ hrun, hstage⟩

theorem Live.checked (h : s.Live) (hrun : s.runs[i]? = some ⟨route, .checking⟩)
    (hlatest : s.Latest i) (verdict : Verdict) (hverdict : verdict ≠ .signedIn) :
    (s.setStage i (.checked verdict)).Live := by
  have hlast := latest_setStage hrun hlatest (.checked verdict)
  refine live_of_latest hlast h.silent ?_ (h.right (latest_eq hrun hlatest))
  cases verdict with
  | signedIn => exact absurd rfl hverdict
  | signedOut | failed => trivial

theorem Live.answered_user (h : s.Live) (hrun : s.runs[i]? = some ⟨route, .checking⟩)
    (user : SessionUser) (hharmless : s.Latest i ∨ s.WillShow ∨ s.Takes user) :
    (s.answered i (.user user)).Live := by
  rw [answered]
  by_cases hlatest : s.Latest i
  · have hlast : ({ s with user := some user }.setStage i (.checked .signedIn)).latest = _ :=
      latest_setStage hrun hlatest (.checked .signedIn)
    exact live_of_latest hlast h.silent Option.isSome_some (h.right (latest_eq hrun hlatest))
  · -- a run that was superseded writes the user
    have hlast : ({ s with user := some user }.setStage i (.checked .signedIn)).latest =
        s.latest := latest_setStage_of_not hlatest (.checked .signedIn)
    refine ⟨h.silent, fun run hrun' ↦ ?_, ?_⟩
    · rw [hlast] at hrun'
      have hcoherent := h.coherent run hrun'
      rw [Coherent] at hcoherent ⊢
      split
      · exact Option.isSome_some
      · rename_i hstage
        rw [hstage] at hcoherent
        exact ⟨Option.isSome_some, hcoherent.2⟩
      · trivial
    · -- what the latest run has read of the former user must be right for this one
      rcases h.ready with hshow | ⟨run, hrun', hstage⟩
      · exact .inl hshow
      · rcases hharmless.resolve_left hlatest with hshow | htakes
        · exact .inl hshow
        · refine .inr ⟨run, hlast ▸ hrun', ?_⟩
          have htake := htakes run hrun'
          obtain ⟨route', stage⟩ := run
          cases stage with
          | checking | checked => exact hstage
          | loading => exact ⟨hstage.1, user, rfl, htake⟩
          | ended =>
            have hstage : s.Shows s.user (Route.parse s.hash) := hstage
            rw [show s.user = some user from htake] at hstage
            exact hstage

/-! ## Pages -/

theorem suits_pageOf {user : SessionUser} (h : pageOf user route = some page) :
    Suits (some user) route page := by
  cases route with
  | login | view => cases h
  | list =>
    obtain rfl := Option.some.inj h
    exact ⟨rfl, rfl⟩
  | admin =>
    obtain rfl := Option.some.inj h
    by_cases hrole : user.role = adminRole
    · rw [if_neg (not_not.mpr hrole)]
      exact ⟨rfl, rfl, hrole⟩
    · rw [if_pos hrole]
      exact ⟨rfl, rfl, hrole⟩
  | edit slug =>
    cases slug with
    | some slug => cases h
    | none =>
      obtain rfl := Option.some.inj h
      by_cases hedit : user.canEdit = true
      · rw [if_pos hedit]
        exact ⟨rfl, rfl, user, rfl, rfl, hedit⟩
      · rw [if_neg hedit]
        exact ⟨rfl, rfl, user, rfl, Bool.eq_false_iff.mpr hedit⟩

theorem loads_of_pageOf {user : SessionUser} (h : pageOf user route = none)
    (hne : route ≠ .login) : ∃ slug, route = .view slug ∨ route = .edit (some slug) := by
  cases route with
  | login => exact absurd rfl hne
  | admin | list => cases h
  | view slug => exact ⟨slug, .inl rfl⟩
  | edit slug =>
    cases slug with
    | none => cases h
    | some slug => exact ⟨slug, .inr rfl⟩

theorem suits_loadedPage (user : SessionUser) (answer : LoadAnswer)
    (h : ∃ slug, route = .view slug ∨ route = .edit (some slug)) :
    Suits (some user) route (loadedPage route user.canEdit (some user) answer) := by
  obtain ⟨slug, hroute⟩ := h
  cases answer with
  | failed missing =>
    refine ⟨rfl, rfl, slug, ?_, hroute⟩
    rcases hroute with rfl | rfl <;> rfl
  | record record =>
    rcases hroute with rfl | rfl
    · exact ⟨rfl, rfl, rfl⟩
    · rw [loadedPage]
      cases hedit : user.canEdit with
      | true => exact ⟨rfl, rfl, user, rfl, rfl, hedit⟩
      | false => exact ⟨rfl, rfl, user, rfl, hedit⟩

/-- What is put in an empty root at the end of the latest call of `show`. -/
theorem live_put {run : Run} (hlast : s.latest = some run) (hended : run.stage = .ended)
    (hsilent : ∀ silent, s.silentHash = some silent → 0 < s.changes ∧ silent ≠ Route.list.href)
    (hroot : s.root = []) (hcurrent : s.current = none)
    (hready : s.WillShow ∨ Suits s.user (Route.parse s.hash) page) : (s.put page).Live := by
  have hdisplays := displays_put hroot hcurrent page
  have hput : (s.put page).hash = s.hash ∧ (s.put page).changes = s.changes ∧
      (s.put page).silentHash = s.silentHash ∧ (s.put page).user = s.user ∧
      (s.put page).latest = s.latest := by
    rw [put]
    split <;> exact ⟨rfl, rfl, rfl, rfl, rfl⟩
  obtain ⟨hhash, hchanges, hsilent', huser, hlatest⟩ := hput
  refine live_of_latest (hlatest.trans hlast) ?_ ?_ (hready.imp ?_ ?_)
  · rw [hsilent', hchanges]
    exact hsilent
  · rw [Coherent, hended]
    trivial
  · intro hshow
    rw [WillShow, hsilent', hchanges, hhash]
    exact hshow
  · intro hsuits
    rw [Right, hended, hhash, huser]
    exact ⟨page, hdisplays, .inl hsuits⟩

/-! ## The latest call of `show` -/

theorem askLogin_of_ne (h : route ≠ .login) :
    s.askLogin route = { s with silentHash := some Route.login.href }.go .login := by
  cases route with
  | login => exact absurd rfl h
  | list | admin | view | edit => rfl

theorem askLogin_clear (s : AppShell) (i : ℕ) (route : Route) :
    ((s.setStage i .ended).clear.askLogin route).hash = (s.askLogin route).hash ∧
      ((s.setStage i .ended).clear.askLogin route).changes = (s.askLogin route).changes ∧
      ((s.setStage i .ended).clear.askLogin route).silentHash = (s.askLogin route).silentHash ∧
      ((s.setStage i .ended).clear.askLogin route).user = s.user ∧
      ((s.setStage i .ended).clear.askLogin route).root = [] ∧
      ((s.setStage i .ended).clear.askLogin route).current = none ∧
      ((s.setStage i .ended).clear.askLogin route).latest = (s.setStage i .ended).latest := by
  cases route <;> exact ⟨rfl, rfl, rfl, rfl, rfl, rfl, rfl⟩

/-- A signed-in user is shown the page of the route, or it is loaded. -/
theorem resumed_signedIn {user : SessionUser} (hlatest : s.Latest i) (hne : route ≠ .login)
    (huser : s.user = some user) : s.resumed i route .signedIn = s.showPage i route user := by
  rw [resumed, if_neg (not_not.mpr hlatest)]
  cases route with
  | login => exact absurd rfl hne
  | list | admin | view | edit => simp only [huser]

section Latest

variable (h : s.Live) (hlatest : s.Latest i)
include h hlatest

/-- A call that goes on after `ensureSession` is for the address, unless another will follow. -/
theorem Live.route_eq {verdict : Verdict} (hrun : s.runs[i]? = some ⟨route, .checked verdict⟩) :
    s.WillShow ∨ route = Route.parse s.hash :=
  h.right (latest_eq hrun hlatest)

theorem Live.silent_askLogin {verdict : Verdict}
    (hrun : s.runs[i]? = some ⟨route, .checked verdict⟩) (silent : String)
    (hsilent : (s.askLogin route).silentHash = some silent) :
    0 < (s.askLogin route).changes ∧ silent ≠ Route.list.href := by
  by_cases hne : route = .login
  · subst hne
    exact h.silent silent hsilent
  · rw [askLogin_of_ne hne] at hsilent ⊢
    obtain rfl := Option.some.inj hsilent
    refine ⟨?_, by decide⟩
    by_cases hhash : Route.login.href = s.hash
    · -- the address was changed to that of the login page meanwhile
      rcases h.route_eq hlatest hrun with hshow | hroute
      · exact hshow.1.trans_le (changes_le_setHash ..)
      · rw [← hhash] at hroute
        exact absurd hroute hne
    · exact (Nat.succ_pos s.changes).trans_eq (if_neg hhash).symm

theorem Live.resumed_signedOut (hrun : s.runs[i]? = some ⟨route, .checked .signedOut⟩)
    (hharmless : s.user = none ∨ (s.askLogin route).WillShow) :
    (s.resumed i route .signedOut).Live := by
  obtain ⟨hhash, hchanges, hsilent, huser, hroot, hcurrent, hlast⟩ := askLogin_clear s i route
  rw [resumed, if_neg (not_not.mpr hlatest)]
  refine live_put (hlast.trans (latest_setStage hrun hlatest .ended)) rfl ?_ hroot hcurrent ?_
  · rw [hsilent, hchanges]
    exact h.silent_askLogin hlatest hrun
  · rcases hharmless with hnone | hshow
    · exact .inr (huser.trans hnone)
    · refine .inl ?_
      rw [WillShow, hsilent, hchanges, hhash]
      exact hshow

theorem Live.resumed_signedIn (hrun : s.runs[i]? = some ⟨route, .checked .signedIn⟩) :
    (s.resumed i route .signedIn).Live := by
  have hlast : (s.setStage i .ended).clear.latest = some ⟨route, .ended⟩ :=
    latest_setStage hrun hlatest .ended
  have hroute := h.route_eq hlatest hrun
  have huser : s.user.isSome = true := h.coherent _ (latest_eq hrun hlatest)
  obtain ⟨user, huser⟩ := Option.isSome_iff_exists.mp huser
  by_cases hne : route = .login
  · -- the list is asked for in its place
    subst hne
    rw [resumed, if_neg (not_not.mpr hlatest)]
    have hshow : ((s.setStage i .ended).clear.go .list).WillShow := by
      by_cases hhash : Route.list.href = s.hash
      · have hself : (s.setStage i .ended).clear.go .list = (s.setStage i .ended).clear := by
          rw [go, hhash]
          exact setHash_self (s.setStage i .ended).clear
        rw [hself]
        -- the call is for the login page, the address is that of the list: another will follow
        refine hroute.resolve_right fun hroute ↦ ?_
        rw [← hhash] at hroute
        exact Route.noConfusion (hroute.trans (by rfl : Route.parse Route.list.href = .list))
      · exact willShow_setHash (fun silent hsilent ↦ (h.silent silent hsilent).1) hhash
    exact live_of_latest hlast (fun silent hsilent ↦ ⟨hshow.1, (h.silent silent hsilent).2⟩)
      trivial (.inl hshow)
  · rw [AppShell.resumed_signedIn hlatest hne huser, showPage]
    cases hpage : pageOf user route with
    | some page =>
      refine live_put hlast rfl h.silent rfl rfl (hroute.imp_right fun hroute ↦ ?_)
      rw [show (s.setStage i .ended).clear.user = some user from huser]
      exact hroute ▸ suits_pageOf hpage
    | none =>
      have hloading : (s.clear.setStage i (.loading user.canEdit)).latest =
          some ⟨route, .loading user.canEdit⟩ :=
        latest_setStage (s := s.clear) hrun hlatest _
      refine live_of_latest hloading h.silent ?_ (hroute.imp_right fun hroute ↦ ?_)
      · exact ⟨Option.isSome_iff_exists.mpr ⟨user, huser⟩, rfl, rfl, loads_of_pageOf hpage hne⟩
      · exact ⟨hroute, user, huser, rfl⟩

theorem Live.resumed_failed (hrun : s.runs[i]? = some ⟨route, .checked .failed⟩)
    (hharmless : s.user = none ∨ s.WillShow) : (s.resumed i route .failed).Live := by
  rw [resumed, if_neg (not_not.mpr hlatest)]
  have hlast : (s.setStage i .ended).clear.latest = some ⟨route, .ended⟩ :=
    latest_setStage hrun hlatest .ended
  exact live_put hlast rfl h.silent rfl rfl hharmless.symm

/-- The synoptic that the latest call of `show` waits for is answered. -/
theorem Live.loaded {canEdit : Bool} (hrun : s.runs[i]? = some ⟨route, .loading canEdit⟩)
    (answer : LoadAnswer) : (s.loaded i route canEdit answer).Live := by
  have hlast : (s.setStage i .ended).latest = some ⟨route, .ended⟩ :=
    latest_setStage hrun hlatest .ended
  obtain ⟨-, hroot, hcurrent, hloads⟩ := h.coherent _ (latest_eq hrun hlatest)
  rw [AppShell.loaded, if_neg (not_not.mpr hlatest)]
  refine live_put hlast rfl h.silent hroot hcurrent
    ((h.right (latest_eq hrun hlatest)).imp_right ?_)
  rintro ⟨hroute, user, huser, rfl⟩
  change Suits s.user (Route.parse s.hash) _
  rw [huser, ← show route = _ from hroute]
  exact suits_loadedPage user answer hloads

end Latest

/-! ## Saves -/

theorem target_ne (record : SynopticRecord) : target record ≠ Route.list.href := by
  intro h
  have hlength := congrArg (fun text ↦ text.toList.length) h
  simp [target, Route.href] at hlength

theorem Shows.mono {user : Option SessionUser} {route : Route} {saves : List (ℕ × String)}
    (h : s.Shows user route) (hsaves : ∀ save ∈ s.saves, save ∈ saves) :
    Shows { s with saves := saves } user route := by
  obtain ⟨page, hdisplays, hright⟩ := h
  refine ⟨page, hdisplays, hright.imp_right ?_⟩
  rintro ⟨id, target, hcurrent, hsave, hroute⟩
  exact ⟨id, target, hcurrent, hsaves _ hsave, hroute⟩

theorem Shows.of_none (h : s.Shows none route) (route' : Route) : s.Shows none route' := by
  obtain ⟨page, hdisplays, hright⟩ := h
  refine ⟨page, hdisplays, .inl ?_⟩
  rcases hright with hsuits | ⟨_, _, _, _, _, _, _, _, _, huser⟩
  · cases page with
    | login | unreachable => rfl
    | admin | adminDenied | list | viewer => exact absurd hsuits.1.symm (Option.some_ne_none _)
    | editor =>
      obtain ⟨-, -, _, huser, -⟩ := hsuits
      exact absurd huser.symm (Option.some_ne_none _)
    | editDenied =>
      obtain ⟨-, -, _, huser, -⟩ := hsuits
      exact absurd huser.symm (Option.some_ne_none _)
    | notFound =>
      obtain ⟨-, huser, -⟩ := hsuits
      exact absurd huser (by decide)
    | bare => exact hsuits
  · exact absurd huser.symm (Option.some_ne_none _)

/-- An editor that is shown for a user is the page for what it saves. -/
theorem Shows.saved {slug : Option String} {record : Option SynopticRecord} {role target : String}
    (h : s.Shows s.user route) (hcurrent : s.current = some id)
    (heditor : s.mounted[id]? = some (.editor slug record role)) :
    Shows { s with saves := s.saves ++ [(id, target)] } s.user (Route.parse target) := by
  obtain ⟨page, hdisplays, hright⟩ := h
  -- the page shown is the one that has the current instance
  have hpage : page = .editor slug record role := by
    obtain ⟨-, hinstance⟩ := hdisplays
    split at hinstance
    · obtain ⟨id', hid', hmounted⟩ := hinstance
      rw [hcurrent, Option.some.injEq] at hid'
      rw [← hid', heditor, Option.some.injEq] at hmounted
      exact hmounted.symm
    · rw [hcurrent] at hinstance
      cases hinstance
  have huser : ∃ user, s.user = some user ∧ user.role = role := by
    rw [hpage] at hright
    rcases hright with ⟨-, -, user, huser, hrole, -⟩ | ⟨_, _, _, _, _, _, _, user, heq, huser⟩
    · exact ⟨user, huser, hrole⟩
    · injection heq with _ _ hrole
      exact ⟨user, huser, hrole.symm⟩
  obtain ⟨user, huser, rfl⟩ := huser
  refine ⟨page, hdisplays, .inr ⟨id, target, hcurrent, ?_, rfl, slug, record, user, hpage, huser⟩⟩
  exact List.mem_append_right _ (List.mem_singleton_self _)

theorem Live.saved (h : s.Live) {slug : Option String} {old : Option SynopticRecord}
    {role : String} (heditor : s.mounted[id]? = some (.editor slug old role))
    (record : SynopticRecord) (hharmless : s.hash = target record ∨ 0 < s.changes ∨
      s.Stays id (target record)) : (s.saved id record).Live := by
  rw [AppShell.saved]
  by_cases hhash : s.hash = target record
  · rw [if_neg (not_not.mpr hhash)]
    exact h
  · rw [if_pos hhash]
    have hchanges : (if target record = s.hash then s.changes else s.changes + 1) =
        s.changes + 1 := if_neg (Ne.symm hhash)
    refine ⟨fun silent hsilent ↦ ?_, h.coherent, ?_⟩
    · obtain rfl := Option.some.inj hsilent
      exact ⟨(Nat.succ_pos _).trans_eq hchanges.symm, target_ne record⟩
    · by_cases hpos : 0 < s.changes
      · exact .inl (willShow_of_two (lt_of_lt_of_eq (Nat.succ_lt_succ hpos) hchanges.symm))
      · -- the notification is dropped
        have hstays := (hharmless.resolve_left hhash).resolve_left hpos
        obtain ⟨run, hrun, hstage⟩ := h.ready.resolve_left fun hshow ↦ hpos hshow.1
        refine .inr ⟨run, hrun, ?_⟩
        have hsaves : ∀ save ∈ s.saves, save ∈ s.saves ++ [(id, target record)] :=
          fun save hsave ↦ List.mem_append_left _ hsave
        obtain ⟨route, stage⟩ := run
        rcases hstays with hroute | hended
        · -- the address is of the same route
          cases stage with
          | checking | checked => exact hstage.trans hroute.symm
          | loading => exact ⟨hstage.1.trans hroute.symm, hstage.2⟩
          | ended =>
            have hshows : s.Shows s.user (Route.parse s.hash) := hstage
            rw [← hroute] at hshows
            exact hshows.mono hsaves
        · obtain ⟨hstage', hcurrent | hnone⟩ := hended _ hrun
          · obtain rfl : stage = .ended := hstage'
            exact Shows.saved hstage hcurrent heditor
          · obtain rfl : stage = .ended := hstage'
            have hshows : s.Shows s.user (Route.parse s.hash) := hstage
            rw [hnone] at hshows
            change Shows _ s.user _
            rw [hnone]
            exact (hshows.of_none _).mono hsaves

/-! ## Steps -/

theorem Live.left (h : s.Live) (hlive : s.destroyed = false) (route : Route) :
    ({ s with user := none }.go route).show.Live := by
  refine live_show hlive fun silent hsilent ↦ ?_
  obtain ⟨hpos, hlist⟩ := h.silent silent hsilent
  exact ⟨hpos.trans_le (changes_le_setHash ..), hlist⟩

theorem destroyed_show (s : AppShell) : s.show.destroyed = s.destroyed := by
  rw [«show»]
  split <;> rfl

theorem Kept.show (h : s.Kept) : s.show.Kept := by
  rw [AppShell.show]
  split
  · exact h
  · exact ⟨h.known, h.tornKnown, h.once⟩

theorem Kept.notified (h : s.Kept) : s.notified.Kept := by
  have hkept : ∀ silent,
      ({ s with changes := s.changes - 1, silentHash := silent } : AppShell).Kept :=
    fun _ ↦ ⟨h.known, h.tornKnown, h.once⟩
  rw [AppShell.notified]
  split
  · exact hkept _
  · split
    · exact hkept _
    · exact (hkept none).show

theorem destroyed_put (s : AppShell) (page : Page) : (s.put page).destroyed = s.destroyed := by
  rw [put]
  split <;> rfl

/-- Going on after `ensureSession`, the latest call of `show` destroys the page that is shown, and
may put another. -/
theorem turned_resumed (h : s.Kept) (hlatest : s.Latest i) (route : Route) (verdict : Verdict) :
    ∃ t : AppShell, t.Kept ∧ t.current = none ∧ t.destroyed = s.destroyed ∧
      (s.resumed i route verdict = t ∨ ∃ page, s.resumed i route verdict = t.put page) := by
  have hcleared : (s.setStage i .ended).clear.Kept :=
    Kept.clear (s := s.setStage i .ended) ⟨h.known, h.tornKnown, h.once⟩
  cases verdict with
  | failed =>
    refine ⟨_, hcleared, rfl, rfl, .inr ⟨.unreachable, ?_⟩⟩
    rw [resumed, if_neg (not_not.mpr hlatest)]
  | signedOut =>
    refine ⟨(s.setStage i .ended).clear.askLogin route, ?_, ?_, ?_, .inr ⟨.login, ?_⟩⟩
    · cases route <;> exact ⟨hcleared.known, hcleared.tornKnown, hcleared.once⟩
    · cases route <;> rfl
    · cases route <;> rfl
    · rw [resumed, if_neg (not_not.mpr hlatest)]
  | signedIn =>
    by_cases hne : route = .login
    · subst hne
      refine ⟨(s.setStage i .ended).clear.go .list, ?_, rfl, rfl, .inl ?_⟩
      · exact ⟨hcleared.known, hcleared.tornKnown, hcleared.once⟩
      · rw [resumed, if_neg (not_not.mpr hlatest)]
    cases huser : s.user with
    | none =>
      -- the role is read once the page is destroyed, and throws
      refine ⟨(s.setStage i .ended).clear, hcleared, rfl, rfl, .inl ?_⟩
      rw [resumed, if_neg (not_not.mpr hlatest)]
      cases route with
      | login => exact absurd rfl hne
      | list | admin | view | edit => simp only [huser]
    | some user =>
      rw [resumed_signedIn hlatest hne huser, showPage]
      cases hpage : pageOf user route with
      | some page => exact ⟨_, hcleared, rfl, rfl, .inr ⟨page, rfl⟩⟩
      | none =>
        exact ⟨s.clear.setStage i (.loading user.canEdit),
          ⟨h.clear.known, h.clear.tornKnown, h.clear.once⟩, rfl, rfl, .inl rfl⟩

theorem Gone.show (h : s.Gone) (hgone : s.destroyed = true) : s.show.Gone := by
  rw [AppShell.show, if_pos hgone]
  exact h

/-- After `destroy`, a call of `show` that has not ended was superseded. -/
theorem Gone.not_latest (h : s.Gone) (hrun : s.runs[i]? = some run) (hstage : run.stage ≠ .ended) :
    ¬ s.Latest i := fun hlatest ↦ hstage (h.ended run (latest_eq hrun hlatest))

theorem Gone.setStage (h : s.Gone) (hnot : ¬ s.Latest i) (stage : Stage) :
    (s.setStage i stage).Gone := by
  refine ⟨h.current, fun run hrun ↦ ?_⟩
  rw [latest_setStage_of_not hnot] at hrun
  exact h.ended run hrun

theorem Sound.notified (h : s.Sound) : s.notified.Sound := by
  have hdestroyed : s.notified.destroyed = s.destroyed := by
    rw [AppShell.notified]
    split
    · rfl
    · split
      · rfl
      · exact destroyed_show _
  refine ⟨h.kept.notified, fun hlive ↦ ?_, fun hgone ↦ ?_⟩
  · rw [hdestroyed] at hlive
    exact (h.live hlive).notified hlive
  · rw [hdestroyed] at hgone
    rw [AppShell.notified, if_pos hgone]
    exact ⟨(h.gone hgone).current, (h.gone hgone).ended⟩

theorem Sound.answered (h : s.Sound) (hrun : s.runs[i]? = some ⟨route, .checking⟩)
    (answer : MeAnswer) (hharmless : s.Harmless (.answered i answer)) :
    (s.answered i answer).Sound := by
  have hkept := h.kept
  have hnot (hgone : s.destroyed = true) : ¬ s.Latest i := (h.gone hgone).not_latest hrun nofun
  cases answer with
  | user user =>
    refine ⟨⟨hkept.known, hkept.tornKnown, hkept.once⟩, fun hlive ↦ ?_, fun hgone ↦ ?_⟩
    · have hlive : s.destroyed = false := hlive
      refine (h.live hlive).answered_user hrun user (Or.resolve_left hharmless ?_)
      simp [hlive]
    · exact Gone.setStage (s := { s with user := some user })
        ⟨(h.gone hgone).current, (h.gone hgone).ended⟩ (hnot hgone) _
  | refused | failed =>
    refine ⟨⟨hkept.known, hkept.tornKnown, hkept.once⟩, fun hlive ↦ ?_,
      fun hgone ↦ (h.gone hgone).setStage (hnot hgone) _⟩
    by_cases hlatest : s.Latest i
    · exact (h.live hlive).checked hrun hlatest _ nofun
    · exact (h.live hlive).setStage_of_not hlatest _

theorem Sound.resumed (h : s.Sound) {verdict : Verdict}
    (hrun : s.runs[i]? = some ⟨route, .checked verdict⟩)
    (hharmless : s.Harmless (.resumed i)) : (s.resumed i route verdict).Sound := by
  have hkept := h.kept
  by_cases hlatest : s.Latest i
  swap
  · -- a call that was superseded gives up
    rw [AppShell.resumed, if_pos hlatest]
    exact ⟨⟨hkept.known, hkept.tornKnown, hkept.once⟩,
      fun hlive ↦ (h.live hlive).setStage_of_not hlatest _,
      fun hgone ↦ (h.gone hgone).setStage hlatest _⟩
  have hharmless := hharmless route verdict hrun hlatest
  obtain ⟨t, ht, hcurrent, hdestroyed, hturn⟩ := turned_resumed hkept hlatest route verdict
  have hdestroyed' : (s.resumed i route verdict).destroyed = s.destroyed := by
    rcases hturn with heq | ⟨page, heq⟩
    · rw [heq, hdestroyed]
    · rw [heq, destroyed_put, hdestroyed]
  refine ⟨?_, fun hlive ↦ ?_, fun hgone ↦ ?_⟩
  · rcases hturn with heq | ⟨page, heq⟩
    · rw [heq]
      exact ht
    · rw [heq]
      exact ht.put hcurrent page
  · rw [hdestroyed'] at hlive
    have hstate := h.live hlive
    cases verdict with
    | signedIn => exact hstate.resumed_signedIn hlatest hrun
    | signedOut => exact hstate.resumed_signedOut hlatest hrun hharmless
    | failed => exact hstate.resumed_failed hlatest hrun hharmless
  · rw [hdestroyed'] at hgone
    exact absurd hlatest ((h.gone hgone).not_latest hrun nofun)

theorem Sound.loaded (h : s.Sound) {canEdit : Bool}
    (hrun : s.runs[i]? = some ⟨route, .loading canEdit⟩) (answer : LoadAnswer) :
    (s.loaded i route canEdit answer).Sound := by
  have hkept := h.kept
  by_cases hlatest : s.Latest i
  swap
  · rw [AppShell.loaded, if_pos hlatest]
    exact ⟨⟨hkept.known, hkept.tornKnown, hkept.once⟩,
      fun hlive ↦ (h.live hlive).setStage_of_not hlatest _,
      fun hgone ↦ (h.gone hgone).setStage hlatest _⟩
  have hloaded : s.loaded i route canEdit answer =
      (s.setStage i .ended).put (loadedPage route canEdit s.user answer) := by
    rw [AppShell.loaded, if_neg (not_not.mpr hlatest)]
  have hlive : s.destroyed = false :=
    Bool.eq_false_iff.mpr fun hgone ↦ (h.gone hgone).not_latest hrun nofun hlatest
  -- the root was cleared before the synoptic was asked for, and no call of `show` has put a page
  have hcurrent : s.current = none := ((h.live hlive).coherent _ (latest_eq hrun hlatest)).2.2.1
  refine ⟨?_, fun _ ↦ (h.live hlive).loaded hlatest hrun answer, fun hgone ↦ ?_⟩
  · rw [hloaded]
    exact Kept.put (s := s.setStage i .ended) ⟨hkept.known, hkept.tornKnown, hkept.once⟩ hcurrent _
  · rw [hloaded, destroyed_put] at hgone
    exact absurd hgone (ne_true_of_eq_false hlive)

theorem Sound.saved (h : s.Sound) {slug : Option String} {old : Option SynopticRecord}
    {role : String} (heditor : s.mounted[id]? = some (.editor slug old role))
    (record : SynopticRecord) (hharmless : s.Harmless (.saved id record)) :
    (s.saved id record).Sound := by
  have hkept := h.kept
  have hsame : (s.saved id record).destroyed = s.destroyed ∧
      (s.saved id record).current = s.current ∧ (s.saved id record).latest = s.latest ∧
      (s.saved id record).Kept := by
    rw [AppShell.saved]
    split
    · exact ⟨rfl, rfl, rfl, hkept.known, hkept.tornKnown, hkept.once⟩
    · exact ⟨rfl, rfl, rfl, hkept⟩
  obtain ⟨hdestroyed, hcurrent, hlatest, hkept'⟩ := hsame
  refine ⟨hkept', fun hlive ↦ ?_, fun hgone ↦ ?_⟩
  · rw [hdestroyed] at hlive
    refine (h.live hlive).saved heditor record (Or.resolve_left hharmless ?_)
    simp [hlive]
  · rw [hdestroyed] at hgone
    refine ⟨hcurrent.trans (h.gone hgone).current, ?_⟩
    rw [hlatest]
    exact (h.gone hgone).ended

theorem Sound.left (h : s.Sound) (route : Route) :
    ({ s with user := none }.go route).show.Sound := by
  have hkept := h.kept
  refine ⟨Kept.show ⟨hkept.known, hkept.tornKnown, hkept.once⟩, fun hlive ↦ ?_, fun hgone ↦ ?_⟩
  · rw [destroyed_show] at hlive
    exact (h.live hlive).left hlive route
  · rw [destroyed_show] at hgone
    exact Gone.show (s := { s with user := none }.go route)
      ⟨(h.gone hgone).current, (h.gone hgone).ended⟩ hgone

/-- **A harmless step keeps the invariant.** -/
theorem Sound.step {s' : AppShell} {label : Label} (h : s.Sound) (hharmless : s.Harmless label)
    (hstep : s.step label = some s') : s'.Sound := by
  have hkept := h.kept
  cases label with
  | moved hash =>
    obtain rfl := Option.some.inj hstep
    exact ⟨⟨hkept.known, hkept.tornKnown, hkept.once⟩, fun hlive ↦ (h.live hlive).setHash hash,
      fun hgone ↦ ⟨(h.gone hgone).current, (h.gone hgone).ended⟩⟩
  | notified =>
    dsimp only [AppShell.step] at hstep
    split at hstep
    · obtain rfl := Option.some.inj hstep
      exact h.notified
    · cases hstep
  | answered i answer =>
    dsimp only [AppShell.step] at hstep
    split at hstep
    · obtain rfl := Option.some.inj hstep
      exact h.answered ‹_› answer hharmless
    · cases hstep
  | resumed i =>
    dsimp only [AppShell.step] at hstep
    split at hstep
    · obtain rfl := Option.some.inj hstep
      exact h.resumed ‹_› hharmless
    · cases hstep
  | loaded i answer =>
    dsimp only [AppShell.step] at hstep
    split at hstep
    · obtain rfl := Option.some.inj hstep
      exact h.loaded ‹_› answer
    · cases hstep
  | saved id record =>
    dsimp only [AppShell.step] at hstep
    split at hstep
    · obtain rfl := Option.some.inj hstep
      exact h.saved ‹_› record hharmless
    · cases hstep
  | loggedIn id =>
    dsimp only [AppShell.step] at hstep
    split at hstep
    · obtain rfl := Option.some.inj hstep
      exact h.left .list
    · cases hstep
  | loggedOut =>
    obtain rfl := Option.some.inj hstep
    exact h.left .login
  | destroy =>
    obtain rfl := Option.some.inj hstep
    exact ⟨Kept.clear (s := { s with destroyed := true })
      ⟨hkept.known, hkept.tornKnown, hkept.once⟩, nofun, fun _ ↦ ⟨rfl, hharmless⟩⟩

end

/-! ## Runs -/

def alice : SessionUser := ⟨"u", "alice", "engineer"⟩

def created : List Label :=
  [.answered 0 (.user alice), .resumed 0, .saved 0 ⟨"nouveau", "Nouveau"⟩, .notified]

/-- An editor that was replaced sets the address: the list is shown for it. -/
example : ∃ s, Trace.exec step (start "#/edit/new") [.answered 0 (.user alice), .resumed 0,
    .moved "#/", .notified, .resumed 1, .saved 0 ⟨"nouveau", "Nouveau"⟩, .notified] = some s ∧
      ¬ s.Upright := by
  refine ⟨_, rfl, fun h ↦ ?_⟩
  obtain ⟨page, ⟨hroot, -⟩, hright⟩ := h.shown rfl ⟨rfl, by decide⟩
  obtain rfl := List.singleton_inj.mp hroot
  rcases hright with ⟨-, hroute⟩ | ⟨_, _, _, _, _, _, _, _, heq, _⟩
  · cases hroute
  · cases heq

/-- A call that was superseded is answered another user than the latest: the page is that of the
former one. -/
example : ∃ s, Trace.exec step (start "#/") [.moved "#/admin", .notified,
    .answered 1 (.user alice), .resumed 1, .answered 0 (.user ⟨"v", "bob", "operator"⟩),
    .resumed 0] = some s ∧ ¬ s.Upright := by
  refine ⟨_, rfl, fun h ↦ ?_⟩
  obtain ⟨page, ⟨hroot, -⟩, hright⟩ := h.shown rfl ⟨rfl, by decide⟩
  obtain rfl := List.singleton_inj.mp hroot
  rcases hright with ⟨huser, -⟩ | ⟨_, _, _, _, _, _, _, _, heq, _⟩
  · exact absurd huser (by decide)
  · cases heq

end AppShell

end Superviseur
