import Superviseur.Collector.ReadPaths
import Superviseur.Library.Trace

/-!
# COV notifications

A notification says from which address it comes, which process it is for, and what the object holds.
The driver numbers the points in the order of their first subscriptions, and gives the number of a
point as the process of all its subscriptions; `_on_cov` goes by the address and the number alone,
and never looks at the object.

The steps are those of the driver, of the devices and of the network, which loses, delays, repeats
and reorders what it carries. A reading is that of the right point, unless the device still held a
subscription from before the collector was started (`readings_attributed`).
-/

namespace Superviseur.Notifications

/-- What a request or a device says of a subscription. -/
structure Subscription where
  /-- Of the device. -/
  address : String
  processId : ℕ
  object : ObjectKey
  deriving DecidableEq, Repr

structure Notification (Encoded : Type) where
  pduSource : String
  subscriberProcessIdentifier : ℕ
  monitoredObjectIdentifier : ObjectKey
  listOfValues : List (String × Encoded)
  deriving DecidableEq, Repr

/-- What the driver knows of its subscriptions. -/
structure Driver where
  processIds : OrderedDict Uuid ℕ
  covPoints : OrderedDict (String × ℕ) PointRef

/-- The values of an object as the devices encode them, and what is computed of them. -/
structure Decoding (Encoded : Type) where
  env : TextNumbers
  /-- `value.cast_out(property_type)`, by the type of the object and the property; `none` where it
  raises. -/
  castOut : (objectType prop : String) → Encoded → Option Raw

/-- The object of a point. -/
def objectKey (point : PointRef) : ObjectKey := (point.objectType, point.objectInstance)

/-- A request, by its point and the number of the point. -/
def subscription (sent : PointRef × ℕ) : Subscription :=
  ⟨sent.1.address, sent.2, objectKey sent.1⟩

namespace Notification

variable {Encoded : Type}

/-- The subscription a notification is sent under. -/
def under (n : Notification Encoded) : Subscription :=
  ⟨n.pduSource, n.subscriberProcessIdentifier, n.monitoredObjectIdentifier⟩

end Notification

namespace Driver

variable {Encoded : Type}

def new : Driver := ⟨.empty, .empty⟩

/-- `_process_ids.setdefault(point_id, len(_process_ids) + 1)`. -/
def processId (d : Driver) (id : Uuid) : ℕ :=
  (d.processIds.get? id).getD (d.processIds.entries.length + 1)

/-- `subscribe_cov`, up to the request. -/
def subscribeCov (d : Driver) (point : PointRef) : Driver where
  processIds :=
    if (d.processIds.get? point.pointId).isSome then d.processIds
    else d.processIds.insert point.pointId (d.processIds.entries.length + 1)
  covPoints := d.covPoints.insert (point.address, d.processId point.pointId) point

end Driver

/-- The values of the properties that are followed, the last of each; `none` where a value is not of
the type of its property. -/
def castValues {Encoded : Type} (decoding : Decoding Encoded) (objectType : String) :
    List (String × Encoded) → OrderedDict String Raw → Option (OrderedDict String Raw)
  | [], values => some values
  | (name, value) :: rest, values =>
    if name ∈ liveProps then
      (decoding.castOut objectType name value).bind fun raw ↦
        castValues decoding objectType rest (values.insert name raw)
    else castValues decoding objectType rest values

/-- The reading of a point, by the values of a notification; `none` where there is no value to
record or a call raises. -/
def readingOf {Encoded : Type} (decoding : Decoding Encoded) (objectType : String) (id : Uuid)
    (now : Instant) (listOfValues : List (String × Encoded)) : Option Reading :=
  (castValues decoding objectType listOfValues .empty).bind fun values ↦
    (values.get? "present-value").bind fun value ↦
      buildReading decoding.env id value (flags (values.get? "status-flags")) now

/-- `_on_cov`, up to the callbacks. -/
def onCov {Encoded : Type} (decoding : Decoding Encoded) (d : Driver) (now : Instant)
    (n : Notification Encoded) : Option Reading :=
  (d.covPoints.get? (n.pduSource, n.subscriberProcessIdentifier)).bind fun point ↦
    readingOf decoding point.objectType point.pointId now n.listOfValues

/-- The driver, the devices, and all that was ever sent. -/
structure Net (Encoded : Type) where
  driver : Driver
  /-- The requests, by the points and their numbers. -/
  sent : List (PointRef × ℕ)
  /-- The subscriptions that the devices hold. -/
  held : List Subscription
  notifications : List (Notification Encoded)
  /-- The readings given to the callbacks, each with its notification. -/
  given : List (Notification Encoded × Reading)

inductive Label (Encoded : Type) where
  /-- `subscribe_cov`, for a new subscription or to renew one. -/
  | subscribes (point : PointRef)
  /-- A request reaches its device, which accepts it. -/
  | accepts (request : PointRef × ℕ)
  /-- A device forgets a subscription. -/
  | forgets (held : Subscription)
  /-- A device reports the values of an object under a subscription it holds. -/
  | reports (held : Subscription) (values : List (String × Encoded))
  /-- A notification reaches the driver. -/
  | arrives (n : Notification Encoded) (now : Instant)

namespace Net

variable {Encoded : Type}

/-- The collector is started; some devices still hold subscriptions of the collector. -/
def start (old : List Subscription) : Net Encoded := ⟨.new, [], old, [], []⟩

/-- One step; the points are known by their objects, which do not change. -/
def next [DecidableEq Encoded] (decoding : Decoding Encoded) (objects : Uuid → ObjectKey)
    (s : Net Encoded) : Label Encoded → Option (Net Encoded)
  | .subscribes point =>
    if objectKey point = objects point.pointId then
      some { s with
        driver := s.driver.subscribeCov point
        sent := (point, s.driver.processId point.pointId) :: s.sent }
    else none
  | .accepts request =>
    if request ∈ s.sent then some { s with held := subscription request :: s.held } else none
  | .forgets held => some { s with held := s.held.filter (· ≠ held) }
  | .reports held values =>
    if held ∈ s.held then
      some { s with
        notifications := ⟨held.address, held.processId, held.object, values⟩ :: s.notifications }
    else none
  | .arrives n now =>
    if n ∈ s.notifications then
      some { s with given := (onCov decoding s.driver now n).toList.map (n, ·) ++ s.given }
    else none

end Net

/-! ## The numbers of the points -/

/-- Each point has a number of its own, and each request is known by its address and its number. -/
structure Driver.Numbered (d : Driver) (objects : Uuid → ObjectKey) (sent : List (PointRef × ℕ)) :
    Prop where
  le : ∀ id n, d.processIds.get? id = some n → n ≤ d.processIds.entries.length
  injective : ∀ id id' n, d.processIds.get? id = some n → d.processIds.get? id' = some n → id = id'
  given : ∀ request ∈ sent, d.processIds.get? request.1.pointId = some request.2 ∧
    objectKey request.1 = objects request.1.pointId
  covPoints : ∀ address n point, d.covPoints.get? (address, n) = some point →
    (point, n) ∈ sent ∧ point.address = address
  known : ∀ request ∈ sent, (d.covPoints.get? (request.1.address, request.2)).isSome

namespace Driver

variable {d : Driver} {objects : Uuid → ObjectKey} {sent : List (PointRef × ℕ)} {point : PointRef}

theorem get?_subscribeCov_self :
    (d.subscribeCov point).processIds.get? point.pointId = some (d.processId point.pointId) := by
  rw [subscribeCov, processId]
  dsimp only
  cases h : d.processIds.get? point.pointId with
  | none => rw [if_neg (by simp), OrderedDict.get?_insert_self, Option.getD_none]
  | some n => rw [if_pos (by simp), h, Option.getD_some]

theorem get?_subscribeCov {id : Uuid} {n : ℕ} (h : d.processIds.get? id = some n) :
    (d.subscribeCov point).processIds.get? id = some n := by
  rw [subscribeCov]
  dsimp only
  split
  · exact h
  · next hnone =>
    have hne : id ≠ point.pointId := fun heq ↦ hnone (by rw [← heq, h]; rfl)
    rwa [OrderedDict.get?_insert_of_ne hne]

theorem get?_subscribeCov_cases {id : Uuid} {n : ℕ}
    (h : (d.subscribeCov point).processIds.get? id = some n) :
    d.processIds.get? id = some n ∨
      d.processIds.get? point.pointId = none ∧ id = point.pointId ∧
        n = d.processIds.entries.length + 1 := by
  rw [subscribeCov] at h
  dsimp only at h
  split at h
  · exact .inl h
  · next hnone =>
    rw [Option.not_isSome_iff_eq_none] at hnone
    by_cases heq : id = point.pointId
    · rw [heq, OrderedDict.get?_insert_self] at h
      exact .inr ⟨hnone, heq, (Option.some.inj h).symm⟩
    · exact .inl (by rwa [OrderedDict.get?_insert_of_ne heq] at h)

theorem length_subscribeCov (h : d.processIds.get? point.pointId = none) :
    (d.subscribeCov point).processIds.entries.length = d.processIds.entries.length + 1 := by
  have hnotMem := OrderedDict.get?_eq_none_iff.mp h
  rw [subscribeCov]
  dsimp only
  rw [h, if_neg (by simp), OrderedDict.entries_insert_of_notMem hnotMem, List.length_append]
  rfl

theorem length_le_subscribeCov :
    d.processIds.entries.length ≤ (d.subscribeCov point).processIds.entries.length := by
  cases h : d.processIds.get? point.pointId with
  | none => exact (length_subscribeCov h).ge.trans' (Nat.le_succ _)
  | some n =>
    rw [subscribeCov]
    dsimp only
    rw [h, if_pos (by simp)]

theorem numbered_new : new.Numbered objects [] where
  le _ _ h := by simp [new] at h
  injective _ _ _ h := by simp [new] at h
  given _ h := absurd h List.not_mem_nil
  covPoints _ _ _ h := by simp [new] at h
  known _ h := absurd h List.not_mem_nil

/-- A subscription, the first of its point or not, keeps the numbers apart. -/
theorem Numbered.subscribeCov (h : d.Numbered objects sent)
    (hpoint : objectKey point = objects point.pointId) :
    (d.subscribeCov point).Numbered objects ((point, d.processId point.pointId) :: sent) where
  le id n hn := by
    rcases get?_subscribeCov_cases hn with hn | ⟨hnone, rfl, rfl⟩
    · exact (h.le id n hn).trans length_le_subscribeCov
    · exact (length_subscribeCov hnone).ge
  injective id id' n hn hn' := by
    rcases get?_subscribeCov_cases hn with hn | ⟨-, rfl, rfl⟩
    · rcases get?_subscribeCov_cases hn' with hn' | ⟨-, rfl, rfl⟩
      · exact h.injective id id' n hn hn'
      · exact absurd (h.le id _ hn) (by omega)
    · rcases get?_subscribeCov_cases hn' with hn' | ⟨-, rfl, -⟩
      · exact absurd (h.le id' _ hn') (by omega)
      · rfl
  given request hrequest := by
    rcases List.mem_cons.mp hrequest with rfl | hrequest
    · exact ⟨get?_subscribeCov_self, hpoint⟩
    · exact ⟨get?_subscribeCov (h.given request hrequest).1, (h.given request hrequest).2⟩
  covPoints address n other hother := by
    by_cases heq : (address, n) = (point.address, d.processId point.pointId)
    · obtain ⟨rfl, rfl⟩ := Prod.mk.inj heq
      obtain rfl := Option.some.inj (hother.symm.trans OrderedDict.get?_insert_self)
      exact ⟨List.mem_cons_self, rfl⟩
    · have hget := hother
      rw [Driver.subscribeCov] at hget
      dsimp only at hget
      rw [OrderedDict.get?_insert_of_ne heq] at hget
      obtain ⟨hmem, haddress⟩ := h.covPoints address n other hget
      exact ⟨List.mem_cons_of_mem _ hmem, haddress⟩
  known request hrequest := by
    rw [Driver.subscribeCov]
    dsimp only
    by_cases heq : (request.1.address, request.2) = (point.address, d.processId point.pointId)
    · rw [heq, OrderedDict.get?_insert_self]
      rfl
    · rw [OrderedDict.get?_insert_of_ne heq]
      rcases List.mem_cons.mp hrequest with rfl | hrequest
      · exact absurd rfl heq
      · exact h.known request hrequest

theorem Numbered.lookup (h : d.Numbered objects sent) {request : PointRef × ℕ}
    (hrequest : request ∈ sent) :
    ∃ point, d.covPoints.get? (request.1.address, request.2) = some point ∧
      point.pointId = request.1.pointId ∧ objectKey point = objectKey request.1 := by
  obtain ⟨point, hpoint⟩ := Option.isSome_iff_exists.mp (h.known request hrequest)
  have hmem := (h.covPoints _ _ _ hpoint).1
  have hid : point.pointId = request.1.pointId :=
    h.injective _ _ _ (h.given _ hmem).1 (h.given _ hrequest).1
  refine ⟨point, hpoint, hid, ?_⟩
  rw [(h.given _ hmem).2, (h.given _ hrequest).2, hid]

end Driver

/-! ## Who is read -/

section

variable {Encoded : Type} (decoding : Decoding Encoded) (objects : Uuid → ObjectKey)
  (old : List Subscription)

/-- The subscription was asked for since the start, or is older. -/
def Known (sent : List (PointRef × ℕ)) (sub : Subscription) : Prop :=
  sub ∈ old ∨ ∃ request ∈ sent, subscription request = sub

/-- The reading is that of the point the notification is about. -/
def Attributed (sent : List (PointRef × ℕ)) (n : Notification Encoded) (reading : Reading) : Prop :=
  ∃ request ∈ sent, subscription request = n.under ∧
    readingOf decoding n.monitoredObjectIdentifier.1 request.1.pointId reading.ts n.listOfValues =
      some reading

/-- What holds of the driver and of all that was ever sent. -/
structure Net.Valid (s : Net Encoded) : Prop where
  numbered : s.driver.Numbered objects s.sent
  held : ∀ sub ∈ s.held, Known old s.sent sub
  notifications : ∀ n ∈ s.notifications, Known old s.sent n.under
  given : ∀ e ∈ s.given, e.1 ∈ s.notifications ∧
    (e.1.under ∈ old ∨ Attributed decoding s.sent e.1 e.2)

end

variable {Encoded : Type} {decoding : Decoding Encoded} {objects : Uuid → ObjectKey}
  {old : List Subscription} {s t : Net Encoded} {l : Label Encoded}

theorem Known.mono {sent sent' : List (PointRef × ℕ)} {sub : Subscription}
    (h : Known old sent sub) (hsent : sent ⊆ sent') : Known old sent' sub :=
  h.imp_right fun ⟨request, hrequest, heq⟩ ↦ ⟨request, hsent hrequest, heq⟩

theorem Attributed.mono {sent sent' : List (PointRef × ℕ)} {n : Notification Encoded}
    {reading : Reading} (h : Attributed decoding sent n reading) (hsent : sent ⊆ sent') :
    Attributed decoding sent' n reading :=
  let ⟨request, hrequest, heq⟩ := h
  ⟨request, hsent hrequest, heq⟩

theorem ts_readingOf {objectType : String} {id : Uuid} {now : Instant}
    {values : List (String × Encoded)} {reading : Reading}
    (h : readingOf decoding objectType id now values = some reading) : reading.ts = now := by
  obtain ⟨found, -, h⟩ := Option.bind_eq_some_iff.mp h
  obtain ⟨value, -, h⟩ := Option.bind_eq_some_iff.mp h
  obtain ⟨number, -, rfl⟩ := Option.map_eq_some_iff.mp h
  rfl

/-- Under a subscription asked for since the start, `_on_cov` reads the point it was asked for. -/
theorem onCov_eq {request : PointRef × ℕ} (h : s.driver.Numbered objects s.sent)
    (hrequest : request ∈ s.sent) {n : Notification Encoded}
    (hn : subscription request = n.under) (now : Instant) :
    onCov decoding s.driver now n =
      readingOf decoding n.monitoredObjectIdentifier.1 request.1.pointId now n.listOfValues := by
  obtain ⟨point, hpoint, hid, hobject⟩ := h.lookup hrequest
  have hsource : request.1.address = n.pduSource := congrArg Subscription.address hn
  have hnumber : request.2 = n.subscriberProcessIdentifier := congrArg Subscription.processId hn
  have hkey : objectKey request.1 = n.monitoredObjectIdentifier := congrArg Subscription.object hn
  have htype : point.objectType = n.monitoredObjectIdentifier.1 :=
    congrArg Prod.fst (hobject.trans hkey)
  rw [onCov, ← hsource, ← hnumber, hpoint, Option.bind_some, htype, hid]

theorem valid_start : (Net.start old : Net Encoded).Valid decoding objects old where
  numbered := Driver.numbered_new
  held _ h := .inl h
  notifications _ h := absurd h List.not_mem_nil
  given _ h := absurd h List.not_mem_nil

theorem Net.Valid.step [DecidableEq Encoded] (h : s.Valid decoding objects old)
    (hstep : s.next decoding objects l = some t) : t.Valid decoding objects old := by
  cases l with
  | subscribes point =>
    obtain ⟨hpoint, hstep⟩ := Option.ite_none_right_eq_some.mp hstep
    obtain rfl := Option.some.inj hstep
    have hsent : s.sent ⊆ (point, s.driver.processId point.pointId) :: s.sent :=
      List.subset_cons_self _ _
    exact {
      numbered := h.numbered.subscribeCov hpoint
      held := fun sub hsub ↦ (h.held sub hsub).mono hsent
      notifications := fun n hn ↦ (h.notifications n hn).mono hsent
      given := fun e he ↦ ⟨(h.given e he).1, (h.given e he).2.imp_right (·.mono hsent)⟩ }
  | accepts request =>
    obtain ⟨hrequest, hstep⟩ := Option.ite_none_right_eq_some.mp hstep
    obtain rfl := Option.some.inj hstep
    refine { h with held := fun sub hsub ↦ ?_ }
    rcases List.mem_cons.mp hsub with rfl | hsub
    · exact .inr ⟨request, hrequest, rfl⟩
    · exact h.held sub hsub
  | forgets held =>
    obtain rfl := Option.some.inj hstep
    exact { h with held := fun sub hsub ↦ h.held sub (List.mem_of_mem_filter hsub) }
  | reports held values =>
    obtain ⟨hheld, hstep⟩ := Option.ite_none_right_eq_some.mp hstep
    obtain rfl := Option.some.inj hstep
    refine { h with notifications := fun n hn ↦ ?_, given := fun e he ↦ ?_ }
    · rcases List.mem_cons.mp hn with rfl | hn
      · exact h.held held hheld
      · exact h.notifications n hn
    · exact (h.given e he).imp_left (List.mem_cons_of_mem _)
  | arrives n now =>
    obtain ⟨hn, hstep⟩ := Option.ite_none_right_eq_some.mp hstep
    obtain rfl := Option.some.inj hstep
    refine { h with given := fun e he ↦ ?_ }
    rcases List.mem_append.mp he with he | he
    · obtain ⟨reading, hreading, rfl⟩ := List.mem_map.mp he
      have honCov : onCov decoding s.driver now n = some reading := Option.mem_toList.mp hreading
      refine ⟨hn, (h.notifications n hn).imp_right ?_⟩
      rintro ⟨request, hrequest, hunder⟩
      rw [onCov_eq h.numbered hrequest hunder] at honCov
      exact ⟨request, hrequest, hunder, by rwa [ts_readingOf honCov]⟩
    · exact h.given e he

/-- **The readings are those of the right points.** In every run of the driver, the devices and the
network: two requests carry the same number if and only if they are for the same point; a reading
given to the callbacks is that of a point subscribed since the start, from what the device reported
of the object of this point under that subscription; and a notification under such a subscription,
whenever it arrives, is read as that of its point. What is reported under a subscription older than
the collector is the only exception. -/
theorem readings_attributed [DecidableEq Encoded] {ls : List (Label Encoded)}
    (h : Trace.Path (fun s l t ↦ s.next decoding objects l = some t) (.start old) ls t) :
    (∀ a ∈ t.sent, ∀ b ∈ t.sent, a.2 = b.2 ↔ a.1.pointId = b.1.pointId) ∧
    (∀ e ∈ t.given, e.1 ∈ t.notifications ∧
      (e.1.under ∈ old ∨ Attributed decoding t.sent e.1 e.2)) ∧
    ∀ n ∈ t.notifications, n.under ∉ old → ∃ request ∈ t.sent, subscription request = n.under ∧
      ∀ now, onCov decoding t.driver now n =
        readingOf decoding n.monitoredObjectIdentifier.1 request.1.pointId now n.listOfValues := by
  have hvalid : t.Valid decoding objects old :=
    h.invariant (Net.Valid decoding objects old) (fun hs hstep ↦ hs.step hstep) valid_start
  refine ⟨fun a ha b hb ↦ ?_, hvalid.given, fun n hn hold ↦ ?_⟩
  · have hida := (hvalid.numbered.given a ha).1
    have hidb := (hvalid.numbered.given b hb).1
    constructor
    · exact fun heq ↦ hvalid.numbered.injective _ _ _ hida (heq ▸ hidb)
    · exact fun heq ↦ Option.some.inj (hida.symm.trans (heq ▸ hidb))
  · obtain ⟨request, hrequest, hunder⟩ := (hvalid.notifications n hn).resolve_left hold
    exact ⟨request, hrequest, hunder, onCov_eq hvalid.numbered hrequest hunder⟩

/-- Each value is sent as a number. -/
def plain : Decoding ℚ := ⟨BacnetDriver.plainTexts, fun _ _ x ↦ some (.float (.fin x))⟩

def measure : PointRef := ⟨1, 7, "10.0.0.7", "analog-input", 4⟩

def command : PointRef := ⟨2, 7, "10.0.0.7", "analog-value", 5⟩

/-- The objects of the two points. -/
def twoObjects (id : Uuid) : ObjectKey := if id = 1 then objectKey measure else objectKey command

/-- What a device reports of the second point. -/
def report : Notification ℚ := ⟨"10.0.0.7", 2, ("analog-value", 5), [("present-value", 21)]⟩

/-- An older subscription of another object, under the number of the first point. -/
def stale : Subscription := ⟨"10.0.0.7", 1, ("analog-input", 9)⟩

/-- The second point is asked for again, and what the device reports of it arrives twice. -/
def renewed : List (Label ℚ) :=
  [.subscribes measure, .subscribes command, .accepts (command, 2), .subscribes command,
    .reports (subscription (command, 2)) report.listOfValues, .arrives report 10,
    .arrives report 11]

theorem readings_attributed_renewed : ∃ s : Net ℚ,
    s.given.map (fun e ↦ (e.2.pointId, e.2.ts)) = [(2, 11), (2, 10)] ∧
    ∀ e ∈ s.given, e.1.under ∈ [stale] ∨ Attributed plain s.sent e.1 e.2 := by
  have hends : (Trace.exec (Net.next plain twoObjects) (.start [stale]) renewed).map
      (fun s ↦ s.given.map fun e ↦ (e.2.pointId, e.2.ts)) = some [(2, 11), (2, 10)] := by
    decide +kernel
  obtain ⟨s, hs, hends⟩ := Option.map_eq_some_iff.mp hends
  exact ⟨s, hends, fun e he ↦ ((readings_attributed (.of_exec_next hs)).2.1 e he).2⟩

/-- What is reported under the older subscription is read as the first point. -/
example : (Trace.exec (Net.next plain twoObjects) (.start [stale])
    [.subscribes measure, .reports stale [("present-value", 21)],
      .arrives ⟨"10.0.0.7", 1, ("analog-input", 9), [("present-value", 21)]⟩ 10]).map
    (fun s ↦ s.given.map fun e ↦ (e.1.monitoredObjectIdentifier, e.2.pointId)) =
      some [(("analog-input", 9), 1)] := by
  decide +kernel

end Superviseur.Notifications
