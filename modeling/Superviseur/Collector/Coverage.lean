import Mathlib.Algebra.Order.Monoid.WithTop
import Mathlib.Tactic.Linarith
import Superviseur.Collector.Cov

/-!
# The points under COV keep a subscription that has not expired

A point whose `cov_active` is set is polled for safety only, so that it must have a subscription the
device still honours. **This holds as long as the passes that reach all the subscriptions to renew
follow each other closely enough.** A pass that a request ends early, because the device rejects the
service or does not answer, leaves the points that come after it as they are: if no later pass
reaches them, as is always the case once `supports_cov` is cleared, they stay active under a
subscription that ends, and their values are frozen.

What is kept is that the instant the code notes as the end of a subscription is not after its end at
the device, and that the last of these passes either began such a subscription anew or had no need
to.
-/

namespace Superviseur

/-- The point is due, or will be before its own interval has elapsed. -/
def PointState.Scheduled (clock : Instant) (p : PointState) : Prop :=
  p.nextDue ≤ clock ∨ p.nextDue ≤ clock + p.pollIntervalS

theorem PointState.Scheduled.mono {p : PointState} {now now' : Instant} (h : p.Scheduled now)
    (hle : now ≤ now') : p.Scheduled now' := by
  rcases h with h | h
  · exact .inl (h.trans hle)
  · exact .inr (h.trans (add_le_add_left hle _))

namespace Coverage

variable (cov : CovConfig) (polling : PollingConfig)

/-- At `t`, the last pass that reached the subscriptions to renew, if there are any subscriptions,
began less than `renew_before_s`, and less than a lifetime, ago. -/
def Recent (s : Coverage) (t : Instant) : Prop :=
  s.Unsubscribed ∨ t < s.attended + cov.renewBeforeS ∧ (t : WithTop Instant) < cov.expiry s.attended

/-- Time goes on, while the device is online, between passes that reach the subscriptions to renew.
The answer to a request comes before a subscription that began with the request would expire, and
none is accepted once an offline device has lost its subscriptions. -/
def Attended (s : Coverage) : Event → Prop
  | .tick t => s.device.online = true → s.Recent cov t
  | .accepted _ =>
    (match s.pass with
      | .asking _ _ _ sent _ => (s.clock : WithTop Instant) < cov.expiry sent
      | _ => True) ∧
    (s.device.online = true ∨ s.polling.isGoingOffline = true)
  | _ => True

/-- A point of a device that is online has a subscription that has not expired, or is polled at its
own interval. -/
def Covered (s : Coverage) : Prop :=
  s.device.online = true → ∀ id p, s.device.point id = some p →
    if p.covActive then (s.clock : WithTop Instant) < s.expiry id else p.Scheduled s.clock

/-- The point is among those to be recorded as lost, the device being offline. -/
def Losing (s : Coverage) (id : Uuid) : Prop :=
  s.device.online = false ∧ ∃ now lost, s.polling = .losing now lost ∧ id ∈ lost

/-- The subscription of the point began at `since` or later, or was not to be renewed then. -/
def KeptSince (since : Instant) (p : PointState) : Prop :=
  cov.expiry since ≤ p.covExpires ∨
    ((since + cov.renewBeforeS : Instant) : WithTop Instant) < p.covExpires

/-- What the code notes of the subscription of a point. -/
structure Noted (s : Coverage) (id : Uuid) (p : PointState) : Prop where
  capable : p.covCapable = true
  expiry : p.covExpires ≤ s.expiry id
  kept : KeptSince cov s.attended p

/-- What every step preserves. -/
structure Valid (s : Coverage) : Prop where
  clock : 0 ≤ s.clock
  attended : s.attended ≤ s.clock
  pass : ∀ now, s.pass.now = some now → s.attended ≤ now ∧ now ≤ s.clock
  /-- The pass has reached the other points. -/
  reached : ∀ now, s.pass.now = some now → ∀ id p, s.device.point id = some p →
    p.covActive = true → id ∉ s.pass.left → KeptSince cov now p
  asked : ∀ now id renewing sent left, s.pass = .asking now id renewing sent left →
    now ≤ sent ∧ ∀ p, s.device.point id = some p →
      p.covCapable = true ∧ (renewing = false → p.covActive = false)
  cycle : ∀ now, s.polling.now = some now → now ≤ s.clock
  offline : ∀ now, s.polling = .goingOffline now → s.device.online = false
  lost : s.device.online = false → s.polling.isGoingOffline = false →
    ∀ id p, s.device.point id = some p → p.covActive = false
  noted : ∀ id p, s.device.point id = some p → p.covActive = true → s.Noted cov id p
  scheduled : ∀ id p, s.device.point id = some p → p.covActive = false →
    p.Scheduled s.clock ∨ s.Losing id
  current : s.device.online = true → ∀ id p, s.device.point id = some p → p.covActive = true →
    (s.clock : WithTop Instant) < s.expiry id

variable {cov polling} {s t : Coverage} {e : Event}

/-! ## The clock and the subscriptions -/

theorem expiry_mono {a b : Instant} (h : a ≤ b) : cov.expiry a ≤ cov.expiry b := by
  rw [CovConfig.expiry, CovConfig.expiry]
  split
  · exact le_rfl
  · exact WithTop.coe_le_coe.mpr (add_le_add_left h _)

/-- The subscriptions are current while the pass that reached them is recent. -/
theorem Valid.lt_expiry (h : Valid cov s) {now : Instant} (hrecent : s.Recent cov now) {id : Uuid}
    {p : PointState} (hp : s.device.point id = some p) (hactive : p.covActive = true) :
    (now : WithTop Instant) < s.expiry id := by
  have hnoted := h.noted id p hp hactive
  rcases hrecent with hnone | ⟨hlt, hexpiry⟩
  · rw [hnone p (DeviceState.mem_of_point hp)] at hactive
    nomatch hactive
  refine lt_of_lt_of_le ?_ hnoted.expiry
  rcases hnoted.kept with hkept | hkept
  · exact hexpiry.trans_le hkept
  · exact (WithTop.coe_lt_coe.mpr hlt).trans hkept

theorem keptSince_of_settled {now : Instant} {p : PointState} (hsettled : p.settled cov now = true)
    (hactive : p.covActive = true) : KeptSince cov now p := by
  rw [PointState.settled, if_pos hactive] at hsettled
  exact .inr (of_decide_eq_true hsettled)

theorem KeptSince.of_le {since now : Instant} {p : PointState} (h : KeptSince cov now p)
    (hle : since ≤ now) : KeptSince cov since p := by
  refine h.imp (fun h ↦ (expiry_mono hle).trans h) fun h ↦ lt_of_le_of_lt ?_ h
  exact WithTop.coe_le_coe.mpr (add_le_add_left hle _)

/-! ## Time, and the pass -/

theorem Valid.tick (h : Valid cov s) {now : Instant} (hnow : s.clock ≤ now)
    (hrecent : s.device.online = true → s.Recent cov now) :
    Valid cov { s with clock := now } where
  clock := h.clock.trans hnow
  attended := h.attended.trans hnow
  pass start hstart := (h.pass start hstart).imp_right fun h ↦ h.trans hnow
  reached := h.reached
  asked := h.asked
  cycle start hstart := (h.cycle start hstart).trans hnow
  offline := h.offline
  lost := h.lost
  noted id p hp hactive := ⟨(h.noted id p hp hactive).capable, (h.noted id p hp hactive).expiry,
    (h.noted id p hp hactive).kept⟩
  scheduled id p hp hactive := (h.scheduled id p hp hactive).imp_left fun hp ↦ hp.mono hnow
  current honline _ _ hp hactive := h.lt_expiry (hrecent honline) hp hactive

theorem Valid.passing (h : Valid cov s) {pass : Pass} {attended : Instant}
    (hattended : attended ≤ s.clock)
    (hkept : ∀ id p, s.device.point id = some p → p.covActive = true → KeptSince cov attended p)
    (hnow : ∀ now, pass.now = some now → attended ≤ now ∧ now ≤ s.clock)
    (hreached : ∀ now, pass.now = some now → ∀ id p, s.device.point id = some p →
      p.covActive = true → id ∉ pass.left → KeptSince cov now p)
    (hasked : ∀ now id renewing sent left, pass = .asking now id renewing sent left →
      now ≤ sent ∧ ∀ p, s.device.point id = some p →
        p.covCapable = true ∧ (renewing = false → p.covActive = false)) :
    Valid cov { s with pass := pass, attended := attended } where
  clock := h.clock
  attended := hattended
  pass := hnow
  reached := hreached
  asked := hasked
  cycle := h.cycle
  offline := h.offline
  lost := h.lost
  noted id p hp hactive := ⟨(h.noted id p hp hactive).capable, (h.noted id p hp hactive).expiry,
    hkept id p hp hactive⟩
  scheduled := h.scheduled
  current := h.current

/-- The pass moves on to the points `left`, the points before them being reached. -/
theorem Valid.moveOn (h : Valid cov s) {now : Instant} {left : List Uuid}
    (hbegun : s.attended ≤ now ∧ now ≤ s.clock)
    (hreached : ∀ id p, s.device.point id = some p → p.covActive = true → id ∉ left →
      KeptSince cov now p) :
    Valid cov { s with pass := .serving now left } := by
  refine h.passing h.attended (fun id p hp hactive ↦ (h.noted id p hp hactive).kept) ?_ ?_
    fun _ _ _ _ _ hpass ↦ nomatch hpass
  · intro start hstart
    obtain rfl := Option.some.inj hstart
    exact hbegun
  · intro start hstart
    obtain rfl := Option.some.inj hstart
    exact hreached

/-- A pass that ends counts where it leaves no subscription to renew. -/
theorem Valid.endPass (h : Valid cov s) {now : Instant} {left : List Uuid}
    (hbegun : s.attended ≤ now ∧ now ≤ s.clock)
    (hreached : ∀ id p, s.device.point id = some p → p.covActive = true → id ∉ left →
      KeptSince cov now p) :
    Valid cov (s.endPass cov now left) := by
  rw [Coverage.endPass]
  split
  · rename_i hnone
    refine h.passing hbegun.2 ?_ (fun _ hnow ↦ nomatch hnow) (fun _ hnow ↦ nomatch hnow)
      fun _ _ _ _ _ hpass ↦ nomatch hpass
    intro id p hp hactive
    by_cases hid : id ∈ left
    · exact keptSince_of_settled (hnone id hid p hp hactive) hactive
    · exact hreached id p hp hactive hid
  · exact h.passing h.attended (fun id p hp hactive ↦ (h.noted id p hp hactive).kept)
      (fun _ hnow ↦ nomatch hnow) (fun _ hnow ↦ nomatch hnow) fun _ _ _ _ _ hpass ↦ nomatch hpass

theorem Valid.service (h : Valid cov s) :
    Valid cov { s with
      pass := .serving s.clock s.device.pointIds
      attended := if s.Unsubscribed then s.clock else s.attended } := by
  have hattended : (if s.Unsubscribed then s.clock else s.attended) ≤ s.clock := by
    split
    · exact le_rfl
    · exact h.attended
  refine h.passing hattended ?_ ?_ ?_ fun _ _ _ _ _ hpass ↦ nomatch hpass
  · intro id p hp hactive
    split
    · rename_i hnone
      rw [hnone p (DeviceState.mem_of_point hp)] at hactive
      nomatch hactive
    · exact (h.noted id p hp hactive).kept
  · intro start hstart
    obtain rfl := Option.some.inj hstart
    exact ⟨hattended, le_rfl⟩
  · exact fun _ _ id p hp _ hid ↦ absurd (DeviceState.mem_pointIds hp) hid

theorem Valid.visit (h : Valid cov s) {now : Instant} {id : Uuid} {left : List Uuid}
    (hpass : s.pass = .serving now (id :: left)) : Valid cov (s.visit cov now id left) := by
  have hbegun := h.pass now (by rw [hpass]; rfl)
  have hreached : ∀ other p, s.device.point other = some p → p.covActive = true →
      other ≠ id → other ∉ left → KeptSince cov now p := by
    intro other p hp hactive hne hother
    refine h.reached now (by rw [hpass]; rfl) other p hp hactive ?_
    rw [hpass]
    exact fun hmem ↦ (List.mem_cons.mp hmem).elim hne hother
  rw [Coverage.visit]
  split
  · rename_i hnone
    refine h.moveOn hbegun fun other p hp hactive ↦ hreached other p hp hactive ?_
    rintro rfl
    nomatch hnone.symm.trans hp
  rename_i point hpoint
  by_cases hcapable : point.covCapable = true
  · rw [if_neg (not_not.mpr hcapable)]
    split
    · rename_i hsettled
      refine h.moveOn hbegun fun other p hp hactive hother ↦ ?_
      by_cases hid : other = id
      · subst hid
        obtain rfl := Option.some.inj (hpoint.symm.trans hp)
        exact keptSince_of_settled hsettled hactive
      · exact hreached other p hp hactive hid hother
    · refine h.passing h.attended (fun id p hp hactive ↦ (h.noted id p hp hactive).kept) ?_ ?_ ?_
      · intro start hstart
        obtain rfl := Option.some.inj hstart
        exact hbegun
      · intro start hstart other p hp hactive hother
        obtain rfl := Option.some.inj hstart
        rw [Pass.left, List.mem_cons, not_or] at hother
        exact hreached other p hp hactive hother.1 hother.2
      · rintro start other renewing sent rest hasking
        cases hasking
        refine ⟨hbegun.2, fun p hp ↦ ?_⟩
        obtain rfl := Option.some.inj (hpoint.symm.trans hp)
        exact ⟨hcapable, fun hrenewing ↦ hrenewing⟩
  · -- the point cannot have a subscription
    rw [if_pos hcapable]
    refine h.moveOn hbegun fun other p hp hactive ↦ hreached other p hp hactive ?_
    rintro rfl
    obtain rfl := Option.some.inj (hpoint.symm.trans hp)
    exact hcapable (h.noted _ _ hp hactive).capable

/-! ## What the points become -/

theorem Valid.accepted (h : Valid cov s) {now instant sent : Instant} {id : Uuid} {renewing : Bool}
    {left : List Uuid} (hpass : s.pass = .asking now id renewing sent left) (hsent : sent ≤ instant)
    (hanswer : (s.clock : WithTop Instant) < cov.expiry sent)
    (honline : s.device.online = true ∨ s.polling.isGoingOffline = true) :
    Valid cov { s with
      pass := .serving now left
      device := s.device.modifyPoint id (PointState.subscribed cov now)
      expiry := Function.update s.expiry id (cov.expiry instant) } := by
  have hbegun := h.pass now (by rw [hpass]; rfl)
  have hnow : now ≤ instant := (h.asked _ _ _ _ _ hpass).1.trans hsent
  have hbecomes {other : Uuid} {p : PointState}
      (hp : (s.device.modifyPoint id (PointState.subscribed cov now)).point other = some p) :
      (other = id ∧ ∃ old, s.device.point id = some old ∧ old.subscribed cov now = p) ∨
        (other ≠ id ∧ s.device.point other = some p) :=
    DeviceState.of_point_modifyPoint (f := PointState.subscribed cov now) (fun _ ↦ rfl) hp
  constructor
  case clock => exact h.clock
  case attended => exact h.attended
  case pass =>
    intro start hstart
    obtain rfl := Option.some.inj hstart
    exact hbegun
  case reached =>
    intro start hstart other p hp hactive hleft
    obtain rfl := Option.some.inj hstart
    rcases hbecomes hp with ⟨rfl, old, -, rfl⟩ | ⟨hid, hp⟩
    · exact .inl le_rfl
    · refine h.reached now (by rw [hpass]; rfl) other p hp hactive ?_
      rw [hpass]
      exact fun hmem ↦ (List.mem_cons.mp hmem).elim hid hleft
  case asked => exact fun _ _ _ _ _ hasking ↦ nomatch hasking
  case cycle => exact h.cycle
  case offline => exact h.offline
  case lost =>
    intro hoffline hpolling
    rcases honline with honline | hgoing
    · nomatch honline.symm.trans hoffline
    · nomatch hgoing.symm.trans hpolling
  case noted =>
    intro other p hp hactive
    -- the subscription that is accepted expires no sooner than is noted
    rcases hbecomes hp with ⟨rfl, old, hold, rfl⟩ | ⟨hid, hp⟩
    · refine ⟨((h.asked _ _ _ _ _ hpass).2 old hold).1, ?_, .inl (expiry_mono hbegun.1)⟩
      simp only [Function.update_self]
      exact expiry_mono hnow
    · refine ⟨(h.noted other p hp hactive).capable, ?_, (h.noted other p hp hactive).kept⟩
      simp only [Function.update_of_ne hid]
      exact (h.noted other p hp hactive).expiry
  case scheduled =>
    intro other p hp hactive
    rcases hbecomes hp with ⟨rfl, old, -, rfl⟩ | ⟨-, hp⟩
    · -- its subscription has just become active
      nomatch hactive
    · exact h.scheduled other p hp hactive
  case current =>
    intro honline other p hp hactive
    rcases hbecomes hp with ⟨rfl, -⟩ | ⟨hid, hp⟩
    · simp only [Function.update_self]
      exact hanswer.trans_le (expiry_mono hsent)
    · simp only [Function.update_of_ne hid]
      exact h.current honline other p hp hactive

/-- A change that gives no point a subscription, after which the points without one are scheduled if
they were, or are to be recorded as lost. -/
structure Change (s t : Coverage) (f : PointState → PointState) : Prop where
  points : t.device.points = s.device.points.map f
  ref : ∀ p, (f p).ref = p.ref ∧ (f p).covCapable = p.covCapable
  active : ∀ p, (f p).covActive = true → p.covActive = true ∧ (f p).covExpires = p.covExpires
  scheduled : ∀ id p, s.device.point id = some p → (f p).covActive = false →
    (p.covActive = false → p.Scheduled s.clock ∨ s.Losing id) →
    (f p).Scheduled s.clock ∨ t.Losing id
  pass : ∀ now, t.pass.now = some now → s.pass.now = some now ∧ ∀ id p,
    s.device.point id = some p → (f p).covActive = true → id ∉ t.pass.left → id ∉ s.pass.left
  asked : ∀ now id renewing sent left, t.pass = .asking now id renewing sent left →
    s.pass = .asking now id renewing sent left
  cycle : ∀ now, t.polling.now = some now → now ≤ s.clock
  offline : ∀ now, t.polling = .goingOffline now → t.device.online = false
  lost : t.device.online = false → t.polling.isGoingOffline = false →
    ∀ id p, s.device.point id = some p → (f p).covActive = false
  clock : t.clock = s.clock := by rfl
  expiry : t.expiry = s.expiry := by rfl
  attended : t.attended = s.attended := by rfl

theorem Change.point {f : PointState → PointState} (hc : Change s t f) {id : Uuid} {p' : PointState}
    (hp : t.device.point id = some p') : ∃ p, s.device.point id = some p ∧ f p = p' := by
  have hmap : t.device.point id = (s.device.point id).map f := by
    rw [← DeviceState.point_mapPoints fun p ↦ (hc.ref p).1, DeviceState.point, hc.points]
    rfl
  rw [hmap] at hp
  exact Option.map_eq_some_iff.mp hp

theorem Valid.change {f : PointState → PointState} (h : Valid cov s) (hc : Change s t f)
    (hcurrent : t.device.online = true → ∀ id p, s.device.point id = some p →
      p.covActive = true → (s.clock : WithTop Instant) < s.expiry id) : Valid cov t := by
  constructor
  case clock => exact hc.clock ▸ h.clock
  case attended => exact hc.clock ▸ hc.attended ▸ h.attended
  case pass => exact fun now hnow ↦ hc.clock ▸ hc.attended ▸ h.pass now (hc.pass now hnow).1
  case reached =>
    intro now hnow id p' hp' hactive hleft
    obtain ⟨hold, hkept⟩ := hc.pass now hnow
    obtain ⟨p, hp, rfl⟩ := hc.point hp'
    obtain ⟨hp_active, hexpires⟩ := hc.active p hactive
    have hreached := h.reached now hold id p hp hp_active (hkept id p hp hactive hleft)
    rw [KeptSince, hexpires]
    exact hreached
  case asked =>
    intro now id renewing sent left hpass
    have hasked := h.asked now id renewing sent left (hc.asked _ _ _ _ _ hpass)
    refine ⟨hasked.1, fun p' hp' ↦ ?_⟩
    obtain ⟨p, hp, rfl⟩ := hc.point hp'
    obtain ⟨hcapable, hinactive⟩ := hasked.2 p hp
    refine ⟨(hc.ref p).2.trans hcapable, fun hrenewing ↦ ?_⟩
    by_contra hactive
    have hp := hinactive hrenewing
    rw [(hc.active p (Bool.not_eq_false _ ▸ hactive)).1] at hp
    nomatch hp
  case cycle => exact fun now hnow ↦ hc.clock ▸ hc.cycle now hnow
  case offline => exact hc.offline
  case lost =>
    intro hoffline hpolling id p' hp'
    obtain ⟨p, hp, rfl⟩ := hc.point hp'
    exact hc.lost hoffline hpolling id p hp
  case noted =>
    intro id p' hp' hactive
    obtain ⟨p, hp, rfl⟩ := hc.point hp'
    obtain ⟨hactive, hexpires⟩ := hc.active p hactive
    have hnoted := h.noted id p hp hactive
    refine ⟨(hc.ref p).2.trans hnoted.capable, ?_, ?_⟩
    · rw [hexpires, hc.expiry]
      exact hnoted.expiry
    · rw [KeptSince, hexpires, hc.attended]
      exact hnoted.kept
  case scheduled =>
    intro id p' hp' hactive
    obtain ⟨p, hp, rfl⟩ := hc.point hp'
    rw [hc.clock]
    exact hc.scheduled id p hp hactive (h.scheduled id p hp)
  case current =>
    intro honline id p' hp' hactive
    obtain ⟨p, hp, rfl⟩ := hc.point hp'
    rw [hc.clock, hc.expiry]
    exact hcurrent honline id p hp (hc.active p hactive).1

/-! ## The steps -/

/-- The change of a refusal: a point that had a subscription is read again at once. -/
theorem Valid.refused (h : Valid cov s) {now sent : Instant} {id : Uuid} {renewing : Bool}
    {left : List Uuid} (hpass : s.pass = .asking now id renewing sent left) {device : DeviceState}
    (hpoints : device.points =
      (s.device.modifyPoint id (PointState.refused cov now renewing)).points)
    (honline : device.online = s.device.online) :
    Valid cov { s with pass := .serving now left, device := device } := by
  have hstart : now ≤ s.clock := (h.pass now (by rw [hpass]; rfl)).2
  refine h.change (f := fun p ↦ if p.ref.pointId = id then p.refused cov now renewing else p)
    ⟨hpoints, ?_, ?_, ?_, ?_, (fun _ _ _ _ _ hasking ↦ nomatch hasking), h.cycle, ?_, ?_, rfl, rfl,
      rfl⟩ ?_
  · intro p
    split <;> exact ⟨rfl, rfl⟩
  · intro p hactive
    split at hactive
    · nomatch hactive
    · rename_i hne
      rw [if_neg hne]
      exact ⟨hactive, rfl⟩
  · intro other p hp hactive hscheduled
    have hother := DeviceState.pointId_of_point hp
    by_cases hid : p.ref.pointId = id
    · rw [if_pos hid]
      cases hrenewing : renewing with
      | true => exact .inl (.inl hstart)
      | false =>
        -- The point had no subscription: it keeps its next poll.
        have hasked := ((h.asked _ _ _ _ _ hpass).2 p (by rw [← hid, hother, hp])).2 hrenewing
        have hp := hscheduled hasked
        rw [Losing] at hp ⊢
        rw [honline]
        exact hp
    · rw [if_neg hid] at hactive ⊢
      have hp := hscheduled hactive
      rw [Losing] at hp ⊢
      rw [honline]
      exact hp
  · intro start hserving
    obtain rfl := Option.some.inj hserving
    rw [hpass]
    refine ⟨rfl, fun other p hp hactive hleft hmem ↦ ?_⟩
    rcases List.mem_cons.mp hmem with rfl | hmem
    · rw [if_pos (DeviceState.pointId_of_point hp)] at hactive
      nomatch hactive
    · exact hleft hmem
  · exact fun start hpolling ↦ honline.trans (h.offline start hpolling)
  · intro hoffline hpolling other p hp
    split
    · rfl
    · exact h.lost (honline.symm.trans hoffline) hpolling other p hp
  · exact fun hdevice ↦ h.current (honline ▸ hdevice)

theorem Valid.refuse (h : Valid cov s) {error : DriverError} {now sent : Instant} {id : Uuid}
    {renewing : Bool} {left : List Uuid} (hpass : s.pass = .asking now id renewing sent left) :
    Valid cov (s.refuse cov error now id renewing left) := by
  rw [Coverage.refuse]
  split
  · refine h.endPass (h.pass now (by rw [hpass]; rfl)) fun other p hp hactive hleft ↦ ?_
    refine h.reached now (by rw [hpass]; rfl) other p hp hactive ?_
    rw [hpass]
    exact hleft
  split
  · have hrefused : Valid cov { s with
        pass := .serving now left
        device := { s.device.modifyPoint id (PointState.refused cov now renewing) with
          supportsCov := false } } := h.refused hpass rfl rfl
    exact hrefused.endPass (hrefused.pass now rfl) (hrefused.reached now rfl)
  · exact h.refused hpass rfl rfl

theorem Valid.polled (h : Valid cov s) {device : DeviceState} {polling : Polling}
    (hpoints : device.points = s.device.points)
    (hlosing : ∀ id, s.Losing id → Losing { s with device := device, polling := polling } id)
    (hcycle : ∀ now, polling.now = some now → now ≤ s.clock)
    (hoffline : ∀ now, polling = .goingOffline now → device.online = false)
    (hlost : device.online = false → polling.isGoingOffline = false →
      s.device.online = false ∧ s.polling.isGoingOffline = false)
    (hcurrent : device.online = true → ∀ id p, s.device.point id = some p → p.covActive = true →
      (s.clock : WithTop Instant) < s.expiry id) :
    Valid cov { s with device := device, polling := polling } := by
  refine h.change (f := id) ⟨?_, fun _ ↦ ⟨rfl, rfl⟩, fun p hactive ↦ ⟨hactive, rfl⟩, ?_,
    fun _ hnow ↦ ⟨hnow, fun _ _ _ _ ↦ id⟩, fun _ _ _ _ _ ↦ id, hcycle, hoffline, ?_, rfl, rfl,
    rfl⟩ hcurrent
  · rw [List.map_id]
    exact hpoints
  · exact fun id p _ hactive hscheduled ↦ (hscheduled hactive).imp_right (hlosing id)
  · intro hdevice hpolling
    obtain ⟨hdevice, hpolling⟩ := hlost hdevice hpolling
    exact h.lost hdevice hpolling

/-- A point that is not under COV is polled again within its interval. -/
theorem scheduled_postponed {p : PointState} {now clock : Instant} (hnow : now ≤ clock)
    (hactive : p.covActive = false) : (p.postponed cov now).Scheduled clock := by
  refine .inr ?_
  rw [PointState.postponed, CovConfig.interval, hactive, if_neg Bool.false_ne_true]
  exact add_le_add_left hnow _

/-- The first poll of a point that is not under COV comes within its interval. -/
theorem scheduled_planned {p : PointState} {clock : Instant} {random : ℚ}
    (hrandom : 0 ≤ random ∧ random < 1) (hactive : p.covActive = false)
    (hp : p.Scheduled clock) : (p.planned cov clock random).Scheduled clock := by
  rw [PointState.planned]
  split
  · rw [PointState.Scheduled, CovConfig.interval, hactive, if_neg Bool.false_ne_true]
    by_cases hinterval : 0 ≤ p.pollIntervalS
    · exact .inr (add_le_add_right (mul_le_of_le_one_left hinterval hrandom.2.le) _)
    · have hle : random * p.pollIntervalS ≤ 0 :=
        mul_nonpos_of_nonneg_of_nonpos hrandom.1 (not_le.mp hinterval).le
      exact .inl (by simpa using hle)
  · exact hp

/-- The next polls of some points are planned anew, those of points without a subscription within
their interval. -/
theorem Valid.planned (h : Valid cov s) {f : PointState → PointState}
    (hf : ∀ p, ∃ due : Instant, f p = { p with nextDue := due })
    (hscheduled : ∀ p ∈ s.device.points, p.covActive = false → p.Scheduled s.clock →
      (f p).Scheduled s.clock) :
    Valid cov { s with device := s.device.mapPoints f } := by
  have hactive : ∀ p, (f p).covActive = p.covActive ∧ (f p).covExpires = p.covExpires := by
    intro p
    obtain ⟨due, hdue⟩ := hf p
    rw [hdue]
    exact ⟨rfl, rfl⟩
  refine h.change (f := f) ⟨rfl, ?_, ?_, ?_, fun _ hnow ↦ ⟨hnow, fun _ _ _ _ ↦ id⟩,
    fun _ _ _ _ _ ↦ id, h.cycle, h.offline, ?_, rfl, rfl, rfl⟩ h.current
  · intro p
    obtain ⟨due, hdue⟩ := hf p
    rw [hdue]
    exact ⟨rfl, rfl⟩
  · intro p hp
    rw [← (hactive p).1, ← (hactive p).2]
    exact ⟨hp, rfl⟩
  · intro id p hp hinactive hkept
    rw [(hactive p).1] at hinactive
    rcases hkept hinactive with hdue | hlost
    · exact .inl (hscheduled p (DeviceState.mem_of_point hp) hinactive hdue)
    · exact .inr hlost
  · intro hoffline hpolling id p hp
    rw [(hactive p).1]
    exact h.lost hoffline hpolling id p hp

theorem Valid.poll (h : Valid cov s) {random : Uuid → ℚ}
    (hrandom : ∀ p ∈ s.device.points, 0 ≤ random p.ref.pointId ∧ random p.ref.pointId < 1) :
    Valid cov { s with
      device := s.device.mapPoints fun p ↦ p.planned cov s.clock (random p.ref.pointId) } := by
  refine h.planned ?_ fun p hp ↦ scheduled_planned (hrandom p hp)
  intro p
  rw [PointState.planned]
  split
  · exact ⟨_, rfl⟩
  · exact ⟨p.nextDue, rfl⟩

theorem Valid.read (h : Valid cov s) {now : Instant} (chunk : List Uuid) (hnow : now ≤ s.clock) :
    Valid cov { s with device := s.device.mapPoints fun p ↦
      if p.ref.pointId ∈ chunk then p.postponed cov now else p } := by
  refine h.planned ?_ ?_
  · intro p
    split
    · exact ⟨_, rfl⟩
    · exact ⟨p.nextDue, rfl⟩
  · intro p _ hactive hp
    split
    · exact scheduled_postponed hnow hactive
    · exact hp

/-- The device is back online, its points having lost their subscriptions, or still so. -/
theorem Valid.succeed (h : Valid cov s) (hlosing : ∀ id, ¬s.Losing id)
    (hpolling : s.polling.isGoingOffline = false) : Valid cov s.succeed := by
  refine h.polled ?_ (fun id hid ↦ absurd hid (hlosing id)) ?_ ?_ ?_ ?_
  · rw [DeviceState.onSuccess]
    split
    · split <;> rfl
    · rfl
  · intro now hnow
    split at hnow <;> nomatch hnow
  · intro now hnow
    split at hnow <;> nomatch hnow
  · intro hoffline
    rw [DeviceState.onSuccess] at hoffline
    split at hoffline
    · rename_i honline
      split at hoffline <;> nomatch hoffline.symm.trans honline
    · nomatch hoffline
  · intro _ id p hp hactive
    cases honline : s.device.online with
    | true => exact h.current honline id p hp hactive
    | false =>
      rw [h.lost honline hpolling id p hp] at hactive
      nomatch hactive

theorem Valid.fail (h : Valid cov s) (hlosing : ∀ id, ¬s.Losing id)
    (hpolling : s.polling.isGoingOffline = false) {lost : List Uuid} :
    Valid cov (s.fail polling lost) := by
  refine h.polled ?_ (fun id hid ↦ absurd hid (hlosing id)) ?_ ?_ ?_ ?_
  · rw [DeviceState.onFailure]
    split <;> rfl
  · intro now hnow
    split at hnow <;> exact (Option.some.inj hnow).ge
  · intro now
    rw [DeviceState.onFailure]
    split
    · exact fun _ ↦ rfl
    · exact fun hnow ↦ nomatch hnow
  · rw [DeviceState.onFailure]
    split
    · exact fun _ hgoing ↦ nomatch hgoing
    · exact fun hoffline _ ↦ ⟨hoffline, hpolling⟩
  · rw [DeviceState.onFailure]
    split
    · exact fun honline ↦ nomatch honline
    · exact h.current

/-- The device being offline, all its points lose their subscriptions and are to be recorded. -/
theorem Valid.dropped (h : Valid cov s) {now : Instant} (hpolling : s.polling = .goingOffline now) :
    Valid cov { s with
      device := s.device.mapPoints PointState.dropped
      polling := .losing now s.device.pointIds } := by
  have honline := h.offline now hpolling
  refine h.change (f := PointState.dropped) ⟨rfl, fun _ ↦ ⟨rfl, rfl⟩,
    (fun _ hactive ↦ nomatch hactive), ?_, fun _ hnow ↦ ⟨hnow, fun _ _ _ hactive ↦ nomatch hactive⟩,
    fun _ _ _ _ _ ↦ id, ?_, (fun _ hnow ↦ nomatch hnow), fun _ _ _ _ _ ↦ rfl, rfl, rfl, rfl⟩ ?_
  · intro id p hp _ _
    exact .inr ⟨honline, now, _, rfl, DeviceState.mem_pointIds hp⟩
  · intro start hstart
    refine h.cycle start ?_
    rw [hpolling]
    exact hstart
  · exact fun hdevice ↦ nomatch honline.symm.trans hdevice

/-- The device being back, all its points are read, and subscribed again. -/
theorem Valid.resumed (h : Valid cov s) :
    Valid cov { s with
      device := s.device.mapPoints (PointState.resumed s.clock)
      polling := .idle } := by
  refine h.change (f := PointState.resumed s.clock) ⟨rfl, fun _ ↦ ⟨rfl, rfl⟩,
    (fun _ hactive ↦ nomatch hactive), ?_, fun _ hnow ↦ ⟨hnow, fun _ _ _ hactive ↦ nomatch hactive⟩,
    fun _ _ _ _ _ ↦ id, (fun _ hnow ↦ nomatch hnow), (fun _ hnow ↦ nomatch hnow),
    fun _ _ _ _ _ ↦ rfl, rfl, rfl, rfl⟩ h.current
  exact fun id p _ _ _ ↦ .inl (.inl le_rfl)

/-- A point is recorded as lost: it is polled again within its interval. -/
theorem Valid.lose (h : Valid cov s) {now : Instant} {id : Uuid} {lost : List Uuid}
    (hpolling : s.polling = .losing now (id :: lost)) :
    Valid cov { s with
      device := s.device.modifyPoint id (PointState.postponed cov now)
      polling := .losing now lost } := by
  have hnow : now ≤ s.clock := h.cycle now (by rw [hpolling]; rfl)
  refine h.change (f := fun p ↦ if p.ref.pointId = id then p.postponed cov now else p)
    ⟨rfl, ?_, ?_, ?_, fun _ hnow ↦ ⟨hnow, fun _ _ _ _ ↦ fun h ↦ h⟩, fun _ _ _ _ _ h ↦ h, ?_,
      (fun _ hnow ↦ nomatch hnow), ?_, rfl, rfl, rfl⟩ h.current
  · intro p
    split <;> exact ⟨rfl, rfl⟩
  · intro p hactive
    split at hactive
    · rename_i heq
      rw [if_pos heq]
      exact ⟨hactive, rfl⟩
    · rename_i hne
      rw [if_neg hne]
      exact ⟨hactive, rfl⟩
  · intro other p hp hactive hscheduled
    by_cases hid : p.ref.pointId = id
    · rw [if_pos hid] at hactive ⊢
      exact .inl (scheduled_postponed hnow hactive)
    · rw [if_neg hid] at hactive ⊢
      refine (hscheduled hactive).imp_right ?_
      rintro ⟨honline, start, pending, heq, hmem⟩
      rw [hpolling, Polling.losing.injEq] at heq
      obtain ⟨rfl, rfl⟩ := heq
      rw [DeviceState.pointId_of_point hp] at hid
      exact ⟨honline, _, _, rfl, (List.mem_cons.mp hmem).resolve_left hid⟩
  · intro start hstart
    refine h.cycle start ?_
    rw [hpolling]
    exact hstart
  · intro hoffline _ other p hp
    have hinactive := h.lost hoffline (by rw [hpolling]; rfl) other p hp
    split <;> exact hinactive

theorem Valid.allLost (h : Valid cov s) {now : Instant} (hpolling : s.polling = .losing now []) :
    Valid cov { s with polling := .idle } := by
  refine h.polled rfl ?_ (fun _ hnow ↦ nomatch hnow) (fun _ hnow ↦ nomatch hnow) ?_ h.current
  · rintro id ⟨-, start, lost, heq, hmem⟩
    rw [hpolling, Polling.losing.injEq] at heq
    rw [← heq.2] at hmem
    nomatch hmem
  · exact fun hoffline _ ↦ ⟨hoffline, by rw [hpolling]; rfl⟩

theorem not_losing {id : Uuid} (h : ∀ now lost, s.polling ≠ .losing now lost) : ¬s.Losing id :=
  fun ⟨_, now, lost, heq, _⟩ ↦ h now lost heq

theorem Valid.begin (h : Valid cov s) (hpolling : s.polling = .idle) {batches : List (List Uuid)} :
    Valid cov { s with
      device := { s.device with lastAttempt := s.clock }
      polling := if batches = [] then .idle else .reading s.clock batches } := by
  refine h.polled rfl ?_ ?_ ?_ ?_ h.current
  · exact fun id hlosing ↦ absurd hlosing (not_losing (by rw [hpolling]; nofun))
  · intro start hstart
    split at hstart
    · nomatch hstart
    · exact (Option.some.inj hstart).ge
  · intro start hstart
    split at hstart <;> nomatch hstart
  · exact fun hoffline _ ↦ ⟨hoffline, by rw [hpolling]; rfl⟩

theorem Valid.batch (h : Valid cov s) {now : Instant} {chunk : List Uuid} {rest : List (List Uuid)}
    (hpolling : s.polling = .reading now (chunk :: rest)) :
    let read := { s with device := s.device.mapPoints fun p ↦
      if p.ref.pointId ∈ chunk then p.postponed cov now else p }
    Valid cov (if rest = [] then read.succeed else { read with polling := .reading now rest }) := by
  intro read
  have hread : Valid cov read := h.read chunk (h.cycle now (by rw [hpolling]; rfl))
  have hlosing : ∀ id, ¬s.Losing id := fun id ↦ not_losing (by rw [hpolling]; nofun)
  have hgoing : s.polling.isGoingOffline = false := by rw [hpolling]; rfl
  split
  · exact hread.succeed hlosing hgoing
  · refine hread.polled rfl (fun id hid ↦ absurd hid (hlosing id)) ?_ (fun _ hnow ↦ nomatch hnow)
      (fun hoffline _ ↦ ⟨hoffline, hgoing⟩) hread.current
    intro start hstart
    refine h.cycle start ?_
    rw [hpolling]
    exact hstart

/-! ## A step, and a run -/

/-- **Step lemma.** -/
theorem Valid.step (h : Valid cov s) (hattended : s.Attended cov e)
    (hstep : next cov polling s e = some t) : Valid cov t := by
  cases e with
  | tick now =>
    obtain ⟨hnow, heq⟩ := Option.ite_none_right_eq_some.mp hstep
    exact Option.some.inj heq ▸ h.tick hnow hattended
  | select =>
    simp only [next] at hstep
    split at hstep
    · obtain ⟨-, heq⟩ := Option.ite_none_right_eq_some.mp hstep
      exact Option.some.inj heq ▸ h.passing h.attended
        (fun id p hp hactive ↦ (h.noted id p hp hactive).kept) (fun _ hnow ↦ nomatch hnow)
        (fun _ hnow ↦ nomatch hnow) (fun _ _ _ _ _ hpass ↦ nomatch hpass)
    · nomatch hstep
  | service =>
    simp only [next] at hstep
    split at hstep
    · exact Option.some.inj hstep ▸ h.service
    · nomatch hstep
  | visit =>
    simp only [next] at hstep
    split at hstep
    · rename_i hpass
      exact Option.some.inj hstep ▸ h.visit hpass
    · rename_i now hpass
      refine Option.some.inj hstep ▸ h.endPass (h.pass now (by rw [hpass]; rfl)) ?_
      intro id p hp hactive _
      refine h.reached now (by rw [hpass]; rfl) id p hp hactive ?_
      rw [hpass]
      exact List.not_mem_nil
    · nomatch hstep
  | accepted instant =>
    simp only [next] at hstep
    split at hstep
    · rename_i now id renewing sent left hpass
      obtain ⟨⟨hsent, -⟩, heq⟩ := Option.ite_none_right_eq_some.mp hstep
      rw [Attended, hpass] at hattended
      exact Option.some.inj heq ▸ h.accepted hpass hsent hattended.1 hattended.2
    · nomatch hstep
  | refused error =>
    simp only [next] at hstep
    split at hstep
    · rename_i hpass
      exact Option.some.inj hstep ▸ h.refuse hpass
    · nomatch hstep
  | poll random =>
    simp only [next] at hstep
    split at hstep
    · rename_i hpolling
      obtain ⟨hrandom, heq⟩ := Option.ite_none_right_eq_some.mp hstep
      split at heq
      · exact Option.some.inj heq ▸ h.poll hrandom
      · exact Option.some.inj heq ▸ (h.poll hrandom).begin hpolling
    · nomatch hstep
  | read =>
    simp only [next] at hstep
    split at hstep
    · rename_i now chunk rest hpolling
      exact Option.some.inj hstep ▸ h.batch hpolling
    · nomatch hstep
  | unreachable =>
    simp only [next] at hstep
    split at hstep
    · rename_i hpolling
      exact Option.some.inj hstep ▸
        h.fail (fun id ↦ not_losing (by rw [hpolling]; nofun)) (by rw [hpolling]; rfl)
    · nomatch hstep
  | published =>
    simp only [next] at hstep
    split at hstep
    · rename_i hpolling
      exact Option.some.inj hstep ▸ h.dropped hpolling
    · exact Option.some.inj hstep ▸ h.resumed
    · nomatch hstep
  | lose =>
    simp only [next] at hstep
    split at hstep
    · rename_i hpolling
      exact Option.some.inj hstep ▸ h.lose hpolling
    · rename_i hpolling
      exact Option.some.inj hstep ▸ h.allLost hpolling
    · nomatch hstep
  | contact =>
    exact Option.some.inj hstep ▸ h.polled rfl (fun _ hlosing ↦ hlosing) h.cycle h.offline
      (fun hoffline hgoing ↦ ⟨hoffline, hgoing⟩) h.current

theorem Loaded.valid (h : s.Loaded) : Valid cov s where
  clock := h.clock
  attended := h.attended
  pass now hnow := by
    rw [h.pass] at hnow
    nomatch hnow
  reached now hnow := by
    rw [h.pass] at hnow
    nomatch hnow
  asked _ _ _ _ _ hpass := by
    rw [h.pass] at hpass
    nomatch hpass
  cycle now hnow := by
    rw [h.polling] at hnow
    nomatch hnow
  offline now hnow := by
    rw [h.polling] at hnow
    nomatch hnow
  lost _ _ _ _ hp := (h.points _ (DeviceState.mem_of_point hp)).1
  noted id p hp hactive := by
    rw [(h.points p (DeviceState.mem_of_point hp)).1] at hactive
    nomatch hactive
  scheduled id p hp _ := by
    refine .inl (.inl ?_)
    rw [(h.points p (DeviceState.mem_of_point hp)).2]
    exact h.clock
  current _ id p hp hactive := by
    rw [(h.points p (DeviceState.mem_of_point hp)).1] at hactive
    nomatch hactive

theorem Valid.covers (h : Valid cov s) : s.Covered := by
  intro honline id p hp
  split
  · rename_i hactive
    exact h.current honline id p hp hactive
  · rename_i hactive
    refine (h.scheduled id p hp (Bool.eq_false_of_not_eq_true hactive)).resolve_right ?_
    rintro ⟨hoffline, -⟩
    nomatch honline.symm.trans hoffline

/-- **COV coverage.** Along the runs whose passes reach the subscriptions to renew, often enough,
each point of a device that is online has a subscription that has not expired, or is polled at its
own interval. -/
theorem covered {es : List Event} (hloaded : s.Loaded)
    (hrun : Trace.Path (Trace.Stepping (next cov polling) (Attended cov)) s es t) : t.Covered :=
  (hrun.invariant (Valid cov) (fun h hstep ↦ h.step hstep.1 hstep.2) hloaded.valid).covers

/-! ## Two runs -/

instance (now : Instant) : Decidable (s.Recent cov now) := inferInstanceAs (Decidable (_ ∨ _))

instance : (e : Event) → Decidable (s.Attended cov e)
  | .tick _ => inferInstanceAs (Decidable (_ → _))
  | .accepted _ => match h : s.pass with
    | .asking _ _ _ sent _ => decidable_of_iff ((s.clock : WithTop Instant) < cov.expiry sent ∧
        (s.device.online = true ∨ s.polling.isGoingOffline = true)) (by rw [Attended, h])
    | .idle | .selected | .serving .. => decidable_of_iff
        (s.device.online = true ∨ s.polling.isGoingOffline = true) (by simp [Attended, h])
  | .select | .service | .visit | .refused _ | .poll _ | .read | .unreachable | .published | .lose
  | .contact => .isTrue trivial

/-- Subscriptions of three seconds, renewed two seconds before they expire. -/
def shortCov : CovConfig := ⟨3, 2, 300, 300⟩

def pollingConfig : PollingConfig := ⟨30, 20, 3⟩

/-- A device with two points that can be subscribed. -/
def twoPoints : Coverage where
  clock := 0
  device := .new 1 10 "10.0.0.5" "AHU-1" true true
    [.new ⟨1, 10, "10.0.0.5", "analog-input", 1⟩ none (.fin 0) 900 30 true,
      .new ⟨2, 10, "10.0.0.5", "analog-input", 2⟩ none (.fin 0) 900 30 true]
  pass := .idle
  polling := .idle
  expiry _ := (0 : Instant)
  attended := 0

theorem loaded_twoPoints : twoPoints.Loaded where
  clock := le_rfl
  attended := le_rfl
  pass := rfl
  polling := rfl
  points := by decide

/-- A pass that subscribes both points. -/
def subscription : List Event :=
  [.select, .service, .visit, .accepted 0, .visit, .accepted 0, .visit]

/-- A pass in which the renewal of the first point ends so. -/
def renewal (error : DriverError) : List Event := [.select, .service, .visit, .refused error]

/-- The controller has no room for the first point, and renews the second one. -/
theorem covered_renewed : ∃ t, Trace.Path (Trace.Stepping (next shortCov pollingConfig)
      (Attended shortCov)) twoPoints
      (subscription ++ .tick 1 :: renewal (.requestRejected "error") ++
        [.visit, .accepted 1, .visit, .tick 2]) t ∧
      t.device.points.map PointState.covActive = [false, true] ∧ t.Covered := by
  have hend : (Trace.exec
      (fun s e ↦ if s.Attended shortCov e then next shortCov pollingConfig s e else none) twoPoints
      (subscription ++ .tick 1 :: renewal (.requestRejected "error") ++
        [.visit, .accepted 1, .visit, .tick 2])).map
      (fun t ↦ t.device.points.map PointState.covActive) = some [false, true] := by decide +kernel
  obtain ⟨t, ht, hend⟩ := Option.map_eq_some_iff.mp hend
  have hrun := Trace.Path.of_exec_checked ht
  exact ⟨t, hrun, hend, covered loaded_twoPoints hrun⟩

/-- Time goes on in steps shorter than `renew_before_s`, and between passes that have left nothing
to ask of a device `run` serves. -/
def Prompt (cov : CovConfig) (s : Coverage) : Event → Prop
  | .tick now => s.pass = .idle ∧ now < s.clock + cov.renewBeforeS ∧
      (s.device.supportsCov = true → s.device.online = true →
        ∀ p ∈ s.device.points, p.covCapable = true → p.settled cov s.clock = true)
  | _ => True

instance : (e : Event) → Decidable (s.Prompt cov e)
  | .tick _ => inferInstanceAs (Decidable (_ ∧ _))
  | .select | .service | .visit | .accepted _ | .refused _ | .poll _ | .read | .unreachable
  | .published | .lose | .contact => .isTrue trivial

/-- The controller rejects the renewal of the first point: the device is not served any more, and
the second point stays active under a subscription that expires. -/
theorem not_covered :
    ¬ ∀ (cov : CovConfig) (polling : PollingConfig) (s t : Coverage) (es : List Event),
      0 < cov.lifetimeS → 0 < cov.renewBeforeS → s.Loaded →
      Trace.Path (Trace.Stepping (next cov polling) (Prompt cov)) s es t → t.Covered := by
  intro hcovers
  have hend : (Trace.exec
      (fun s e ↦ if s.Prompt shortCov e then next shortCov pollingConfig s e else none) twoPoints
      (subscription ++ .tick 1 :: renewal (.requestRejected "reject") ++ [.tick 2, .tick 3])).map
      (fun t ↦ (t.device.online, (t.device.point 2).map PointState.covActive,
        (t.expiry 2 ≤ t.clock : Bool))) = some (true, some true, true) := by decide +kernel
  obtain ⟨t, ht, hend⟩ := Option.map_eq_some_iff.mp hend
  simp only [Prod.mk.injEq, decide_eq_true_eq] at hend
  obtain ⟨honline, hactive, hexpired⟩ := hend
  obtain ⟨p, hp, hactive⟩ := Option.map_eq_some_iff.mp hactive
  have hcovered := hcovers _ _ _ t _ (by decide) (by decide) loaded_twoPoints
    (.of_exec_checked ht) honline 2 p hp
  rw [if_pos hactive] at hcovered
  exact absurd hcovered (not_lt.mpr hexpired)

end Coverage

end Superviseur
