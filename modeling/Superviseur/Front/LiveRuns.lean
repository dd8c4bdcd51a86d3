import Superviseur.Front.LiveConnection

/-!
# The connection in any order of events

Between two steps the client has one thing at most to rely on: a socket, a timer or a renewal. It
has one as long as anybody listens, and what was sent on an open socket adds up to the points that
have a listener (`LiveConnection.Valid`). Every step keeps this, whatever the order.

A step that finds nothing to rely on, or that has just lost it, goes through a state whose flags may
be late (`LiveConnection.Idle`); it ends with `connect`, `retry` or a call of `refresh`.
-/

namespace Superviseur

/-! ## What the server has been asked for -/

/-- The points that are asked for, after one more message. -/
def SentMessage.apply (points : List String) (message : SentMessage) : List String :=
  match message.action with
  | .subscribe => points ++ message.points
  | .unsubscribe => points.filter (· ∉ message.points)

/-- What the messages ask for, replayed from the first. -/
def replay (messages : List SentMessage) : List String := messages.foldl SentMessage.apply []

theorem mem_foldl_subscribe {p : String} (chunks : List (List String)) (points : List String) :
    p ∈ (chunks.map (SentMessage.mk .subscribe)).foldl SentMessage.apply points ↔
      p ∈ points ∨ p ∈ chunks.flatten := by
  induction chunks generalizing points with
  | nil => simp
  | cons chunk chunks ih =>
    rw [List.map_cons, List.foldl_cons, ih, List.flatten_cons, SentMessage.apply]
    simp [or_assoc]

theorem mem_foldl_unsubscribe {p : String} (chunks : List (List String)) (points : List String) :
    p ∈ (chunks.map (SentMessage.mk .unsubscribe)).foldl SentMessage.apply points ↔
      p ∈ points ∧ p ∉ chunks.flatten := by
  induction chunks generalizing points with
  | nil => simp
  | cons chunk chunks ih =>
    rw [List.map_cons, List.foldl_cons, ih, List.flatten_cons, SentMessage.apply]
    simp [and_assoc]

namespace LiveConnection

variable {F E : Type} {c : LiveConnection F E} {p : String}

/-- The messages sent on a socket, in order. -/
def sentOn (c : LiveConnection F E) (socket : ℕ) : List SentMessage :=
  c.sent.filterMap fun m ↦ if m.1 = socket then some m.2 else none

/-- The points that are asked for on a socket. -/
def replayed (c : LiveConnection F E) (socket : ℕ) : List String := replay (c.sentOn socket)

/-- What the client relies on: its socket, the timers, the renewals. -/
def links (c : LiveConnection F E) : ℕ :=
  c.socket.toList.length + c.timers.length + c.refreshes

/-- A point has a group. -/
def Listed (listeners : OrderedDict String (List F)) (p : String) : Prop :=
  (listeners.get? p).isSome = true

/-- No group is empty. -/
def Filled (listeners : OrderedDict String (List F)) : Prop :=
  ∀ p group, listeners.get? p = some group → group ≠ []

/-- What holds of a client whose listeners may just have come, or have just gone. -/
structure Sound (c : LiveConnection F E) : Prop where
  alive : c.alive = c.socket.toList
  timers : c.timers.map RetryTimer.id = c.cancelRetry.toList
  refreshes : c.refreshes = c.reconnecting.toNat
  single : c.links ≤ 1
  closed : c.socket = none ↔ c.current = .closed
  filled : Filled c.listeners
  fresh : ∀ k, c.socket = some k → k < c.created
  sent : ∀ m ∈ c.sent, m.1 < c.created
  replayed : ∀ k, c.socket = some k → ∀ p,
    p ∈ c.replayed k ↔ c.current = .open ∧ Listed c.listeners p

/-- What holds of the client between two steps. -/
structure Valid (c : LiveConnection F E) : Prop extends Sound c where
  wanted : c.wanted = true → c.links = 1

/-- Nothing to rely on, whatever the flags say. -/
structure Idle (c : LiveConnection F E) : Prop where
  socket : c.socket = none
  alive : c.alive = []
  timers : c.timers = []
  refreshes : c.refreshes = 0
  closed : c.current = .closed
  filled : Filled c.listeners
  sent : ∀ m ∈ c.sent, m.1 < c.created

/-! ## Links -/

theorem links_eq_zero_iff : c.links = 0 ↔ c.socket = none ∧ c.timers = [] ∧ c.refreshes = 0 := by
  rw [links]
  cases c.socket <;> simp

theorem Sound.idle (h : c.Sound) (hlinks : c.links = 0) : c.Idle := by
  obtain ⟨hsocket, htimers, hrefreshes⟩ := links_eq_zero_iff.mp hlinks
  exact ⟨hsocket, by rw [h.alive, hsocket]; rfl, htimers, hrefreshes, h.closed.mp hsocket,
    h.filled, h.sent⟩

theorem Sound.links_eq_zero (h : c.Sound) :
    c.links = 0 ↔ c.socket = none ∧ c.cancelRetry = none ∧ c.reconnecting = false := by
  rw [links_eq_zero_iff, h.refreshes, ← List.map_eq_nil_iff (f := RetryTimer.id), h.timers]
  cases c.cancelRetry <;> cases c.reconnecting <;> simp

theorem Sound.links_eq_one (h : c.Sound)
    (hnot : ¬ (c.socket = none ∧ c.cancelRetry = none ∧ c.reconnecting = false)) :
    c.links = 1 := by
  have hsingle := h.single
  have hne := mt h.links_eq_zero.mp hnot
  omega

theorem Sound.alone {k : ℕ} (h : c.Sound) (hk : c.socket = some k) :
    c.timers = [] ∧ c.refreshes = 0 ∧ c.cancelRetry = none ∧ c.reconnecting = false := by
  have hsingle := h.single
  rw [links, hk, Option.toList_some, List.length_singleton] at hsingle
  have htimers : c.timers = [] := List.length_eq_zero_iff.mp (by omega)
  have hrefreshes : c.refreshes = 0 := by omega
  have hcancel := h.timers
  rw [htimers] at hcancel
  have hreconnecting := h.refreshes
  rw [hrefreshes] at hreconnecting
  refine ⟨htimers, hrefreshes, ?_, ?_⟩
  · cases hretry : c.cancelRetry with
    | none => rfl
    | some t =>
      rw [hretry] at hcancel
      simp at hcancel
  · cases hflag : c.reconnecting with
    | false => rfl
    | true =>
      rw [hflag] at hreconnecting
      simp at hreconnecting

/-! ## Messages -/

theorem sentOn_eq_nil {k : ℕ} (h : ∀ m ∈ c.sent, m.1 < k) : c.sentOn k = [] := by
  refine List.filterMap_eq_nil_iff.mpr fun m hm ↦ if_neg ?_
  have := h m hm
  omega

theorem setState_eq (c : LiveConnection F E) (state : LiveState) :
    ∃ calls, c.setState state = { c with current := state, calls := calls } := by
  rw [setState]
  split
  · rename_i h
    exact ⟨c.calls, by rw [h]⟩
  · exact ⟨_, rfl⟩

theorem sentOn_send {k : ℕ} (hk : c.socket = some k) (action : SendAction) (points : List String) :
    (c.send action points).sentOn k =
      c.sentOn k ++ (slices subscribeChunk [] points).map (SentMessage.mk action) := by
  rw [sentOn, send, hk, List.filterMap_append, sentOn]
  refine congrArg _ ?_
  rw [Option.toList_some, List.flatMap_singleton, List.filterMap_map]
  rw [← List.filterMap_eq_map]
  exact List.filterMap_congr fun chunk _ ↦ if_pos rfl

theorem mem_replayed_subscribe {k : ℕ} (hk : c.socket = some k) (points : List String) :
    p ∈ (c.send .subscribe points).replayed k ↔ p ∈ c.replayed k ∨ p ∈ points := by
  rw [replayed, replay, sentOn_send hk, List.foldl_append, mem_foldl_subscribe, flatten_slices]
  rfl

theorem mem_replayed_unsubscribe {k : ℕ} (hk : c.socket = some k) (points : List String) :
    p ∈ (c.send .unsubscribe points).replayed k ↔ p ∈ c.replayed k ∧ p ∉ points := by
  rw [replayed, replay, sentOn_send hk, List.foldl_append, mem_foldl_unsubscribe, flatten_slices]
  rfl

theorem lt_of_mem_send {k : ℕ} {action : SendAction} {points : List String}
    (h : ∀ m ∈ c.sent, m.1 < k) (hfresh : ∀ k', c.socket = some k' → k' < k) :
    ∀ m ∈ (c.send action points).sent, m.1 < k := by
  intro m hm
  rcases List.mem_append.mp hm with hm | hm
  · exact h m hm
  · obtain ⟨socket, hsocket, hm⟩ := List.mem_flatMap.mp hm
    obtain ⟨chunk, -, rfl⟩ := List.mem_map.mp hm
    exact hfresh socket (Option.mem_toList.mp hsocket)

/-! ## Listeners -/

section Listeners

variable {d listeners : OrderedDict String (List F)} {added removed : List String} {point : String}
  {group : List F}

theorem listed_insert : Listed (d.insert point group) p ↔ p = point ∨ Listed d p := by
  by_cases hp : p = point
  · subst hp
    simp [Listed]
  · simp [Listed, OrderedDict.get?_insert_of_ne hp, hp]

theorem listed_erase : Listed (d.erase point) p ↔ p ≠ point ∧ Listed d p := by
  by_cases hp : p = point
  · subst hp
    simp [Listed]
  · simp [Listed, OrderedDict.get?_erase_of_ne hp, hp]

theorem Filled.insert (h : Filled d) (hgroup : group ≠ []) : Filled (d.insert point group) := by
  intro p g hg
  by_cases hp : p = point
  · subst hp
    rw [OrderedDict.get?_insert_self, Option.some.injEq] at hg
    exact hg ▸ hgroup
  · rw [OrderedDict.get?_insert_of_ne hp] at hg
    exact h p g hg

theorem Filled.erase (h : Filled d) : Filled (d.erase point) := by
  intro p g hg
  by_cases hp : p = point
  · subst hp
    rw [OrderedDict.get?_erase_self] at hg
    exact absurd hg (by simp)
  · rw [OrderedDict.get?_erase_of_ne hp] at hg
    exact h p g hg

theorem wanted_iff : c.wanted = true ↔ (∃ p, Listed c.listeners p) ∨ c.alarmListeners ≠ [] := by
  rw [wanted, Bool.or_eq_true, Bool.not_eq_true', Bool.not_eq_true', List.isEmpty_eq_false_iff,
    List.isEmpty_eq_false_iff]
  refine or_congr_left ⟨fun h ↦ ?_, fun ⟨p, hp⟩ h ↦ ?_⟩
  · obtain ⟨⟨p, group⟩, he⟩ := List.exists_mem_of_ne_nil _ h
    exact ⟨p, by rw [Listed, OrderedDict.mem_entries_iff.mp he]; rfl⟩
  · obtain ⟨group, hgroup⟩ := Option.isSome_iff_exists.mp hp
    have he := OrderedDict.mem_entries_iff.mpr hgroup
    rw [h] at he
    exact absurd he List.not_mem_nil

variable [DecidableEq F] {listener : F}

theorem join_ne_nil (listener : F) (group : List F) : join listener group ≠ [] := by
  rw [join]
  split
  · exact List.ne_nil_of_mem ‹_›
  · simp

/-- The points that have got a group since `d` are those of `added`. -/
def Adds (d : OrderedDict String (List F)) (acc : OrderedDict String (List F) × List String) :
    Prop :=
  Filled acc.1 ∧ ∀ p, Listed acc.1 p ↔ Listed d p ∨ p ∈ acc.2

/-- Those that have lost their group are those of `removed`. -/
def Drops (d : OrderedDict String (List F)) (acc : OrderedDict String (List F) × List String) :
    Prop :=
  Filled acc.1 ∧ ∀ p, Listed acc.1 p ↔ Listed d p ∧ p ∉ acc.2

theorem Adds.listen (h : Adds d (listeners, added)) :
    Adds d (listen listener (listeners, added) point) := by
  obtain ⟨hfilled, hlisted⟩ := h
  rw [LiveConnection.listen]
  split
  · refine ⟨hfilled.insert (List.cons_ne_nil _ _), fun p ↦ ?_⟩
    rw [listed_insert, hlisted, List.mem_append, List.mem_singleton, or_comm, or_assoc]
  · rename_i group hgroup
    refine ⟨hfilled.insert (join_ne_nil listener group), fun p ↦ ?_⟩
    rw [listed_insert, ← hlisted, or_iff_right_of_imp]
    rintro rfl
    exact Option.isSome_iff_exists.mpr ⟨group, hgroup⟩

theorem Drops.unlisten (h : Drops d (listeners, removed)) :
    Drops d (unlisten listener (listeners, removed) point) := by
  obtain ⟨hfilled, hlisted⟩ := h
  rw [LiveConnection.unlisten]
  split
  · exact ⟨hfilled, hlisted⟩
  rename_i group hgroup
  have hpoint : Listed listeners point := Option.isSome_iff_exists.mpr ⟨group, hgroup⟩
  split
  · exact ⟨hfilled, hlisted⟩
  split
  · -- The last listener of the point goes.
    refine ⟨hfilled.erase, fun p ↦ ?_⟩
    rw [listed_erase, hlisted, List.mem_append, List.mem_singleton, not_or]
    tauto
  · rename_i hne
    refine ⟨hfilled.insert (by rwa [List.isEmpty_iff] at hne), fun p ↦ ?_⟩
    rw [listed_insert, ← hlisted, or_iff_right_of_imp]
    rintro rfl
    exact hpoint

theorem adds_foldl (hfilled : Filled d) (listener : F) (points : List String) :
    Adds d (points.foldl (listen listener) (d, [])) := by
  suffices h : ∀ acc, Adds d acc → Adds d (points.foldl (listen listener) acc) from
    h _ ⟨hfilled, fun p ↦ by simp⟩
  induction points with
  | nil => exact fun acc h ↦ h
  | cons point points ih => exact fun acc h ↦ ih _ h.listen

theorem drops_foldl (hfilled : Filled d) (listener : F) (points : List String) :
    Drops d (points.foldl (unlisten listener) (d, [])) := by
  suffices h : ∀ acc, Drops d acc → Drops d (points.foldl (unlisten listener) acc) from
    h _ ⟨hfilled, fun p ↦ by simp⟩
  induction points with
  | nil => exact fun acc h ↦ h
  | cons point points ih => exact fun acc h ↦ ih _ h.unlisten

end Listeners

/-! ## What a step does to the links -/

section Steps

variable {options : LiveOptions} {texts : LiveTexts E}

theorem Idle.connect (h : c.Idle) : c.connect.Valid := by
  obtain ⟨calls, hstate⟩ :=
    setState_eq { c with cancelRetry := none, reconnecting := false } .connecting
  rw [LiveConnection.connect, hstate]
  exact
    { alive := by rw [h.alive]; rfl
      timers := by rw [h.timers]; rfl
      refreshes := h.refreshes
      single := by rw [links, h.timers, h.refreshes]; exact le_rfl
      closed := by simp
      filled := h.filled
      fresh := by
        intro k hk
        obtain rfl := Option.some.inj hk
        exact Nat.lt_succ_self _
      sent := fun m hm ↦ Nat.lt_succ_of_lt (h.sent m hm)
      replayed := by
        intro k hk p
        obtain rfl := Option.some.inj hk
        have hnil : c.sentOn c.created = [] := sentOn_eq_nil h.sent
        constructor
        · intro hp
          have hp' : p ∈ replay (c.sentOn c.created) := hp
          rw [hnil] at hp'
          exact absurd hp' List.not_mem_nil
        · rintro ⟨hopen, -⟩
          exact absurd hopen (by simp)
      wanted := fun _ ↦ by rw [links, h.timers, h.refreshes]; rfl }

theorem Idle.retry (h : c.Idle) (random : ℚ) : (c.retry options random).Valid :=
  { alive := h.alive.trans (congrArg Option.toList h.socket).symm
    timers := by rw [LiveConnection.retry, h.timers]; rfl
    refreshes := h.refreshes
    single := by rw [links, LiveConnection.retry, h.socket, h.timers, h.refreshes]; exact le_rfl
    closed := iff_of_true h.socket h.closed
    filled := h.filled
    fresh := fun k hk ↦ absurd (h.socket.symm.trans hk) (by simp)
    sent := h.sent
    replayed := fun k hk ↦ absurd (h.socket.symm.trans hk) (by simp)
    wanted := fun _ ↦ by rw [links, LiveConnection.retry, h.socket, h.timers, h.refreshes]; rfl }

theorem Idle.reconnect (h : c.Idle) (hretry : c.cancelRetry = none) (code : ℕ) (random : ℚ) :
    (c.reconnect options code random).Valid := by
  rw [LiveConnection.reconnect]
  split
  · exact
      { alive := h.alive.trans (congrArg Option.toList h.socket).symm
        timers := by rw [h.timers, hretry]; rfl
        refreshes := by rw [h.refreshes]; rfl
        single := by rw [links, h.socket, h.timers, h.refreshes]; exact le_rfl
        closed := iff_of_true h.socket h.closed
        filled := h.filled
        fresh := fun k hk ↦ absurd (h.socket.symm.trans hk) (by simp)
        sent := h.sent
        replayed := fun k hk ↦ absurd (h.socket.symm.trans hk) (by simp)
        wanted := fun _ ↦ by rw [links, h.socket, h.timers, h.refreshes]; rfl }
  · exact Idle.retry { h with } random

theorem Idle.resume (h : c.Idle) (outcome : Option Bool) (random : ℚ) :
    (c.resume options outcome random).Valid := by
  rw [LiveConnection.resume]
  split
  · exact h.connect
  · exact h.retry random

/-- Nobody listens, and the flags say that there is nothing to rely on. -/
theorem Idle.valid (h : c.Idle) (hretry : c.cancelRetry = none)
    (hreconnecting : c.reconnecting = false) (hwanted : c.wanted ≠ true) : c.Valid :=
  { alive := h.alive.trans (congrArg Option.toList h.socket).symm
    timers := by rw [h.timers, hretry]; rfl
    refreshes := by rw [h.refreshes, hreconnecting]; rfl
    single := by rw [links, h.socket, h.timers, h.refreshes]; exact Nat.zero_le 1
    closed := iff_of_true h.socket h.closed
    filled := h.filled
    fresh := fun k hk ↦ absurd (h.socket.symm.trans hk) (by simp)
    sent := h.sent
    replayed := fun k hk ↦ absurd (h.socket.symm.trans hk) (by simp)
    wanted := fun hw ↦ absurd hw hwanted }

theorem Idle.retries (h : c.Idle) (hreconnecting : c.reconnecting = false) : c.retries.Valid := by
  rw [LiveConnection.retries]
  split
  · exact h.connect
  · exact Idle.valid { h with } rfl hreconnecting ‹_›

/-- Nobody listens: the socket is closed and the timer cancelled; a renewal goes on. -/
theorem Sound.disconnect (h : c.Sound) (hwanted : c.wanted ≠ true) : c.disconnect.Valid := by
  have htimers : (c.timers.filter fun timer ↦ some timer.id ≠ c.cancelRetry) = [] := by
    refine List.filter_eq_nil_iff.mpr fun timer htimer ↦ ?_
    have hid := List.mem_map_of_mem (f := RetryTimer.id) htimer
    rw [h.timers, Option.mem_toList] at hid
    simp [Option.mem_def.mp hid]
  have halive : (c.alive.filter fun socket ↦ some socket ≠ c.socket) = [] := by
    refine List.filter_eq_nil_iff.mpr fun socket hsocket ↦ ?_
    rw [h.alive, Option.mem_toList] at hsocket
    simp [Option.mem_def.mp hsocket]
  have hrefreshes : c.refreshes ≤ 1 := (Nat.le_add_left _ _).trans h.single
  rw [LiveConnection.disconnect]
  obtain ⟨calls, hstate⟩ := setState_eq { c with
    timers := c.timers.filter fun timer ↦ some timer.id ≠ c.cancelRetry
    cancelRetry := none
    socket := none
    alive := c.alive.filter fun socket ↦ some socket ≠ c.socket } .closed
  rw [hstate]
  exact
    { alive := halive
      timers := by rw [htimers]; rfl
      refreshes := h.refreshes
      single := by
        rw [links, htimers]
        simpa using hrefreshes
      closed := iff_of_true rfl rfl
      filled := h.filled
      fresh := fun k hk ↦ absurd hk (by simp)
      sent := h.sent
      replayed := fun k hk ↦ absurd hk (by simp)
      wanted := fun hw ↦ absurd hw hwanted }

theorem Sound.send {listeners : OrderedDict String (List F)} {action : SendAction}
    {points : List String} (h : c.Sound) (hfilled : Filled listeners)
    (hreplayed : ∀ k, c.socket = some k → ∀ p,
      p ∈ (c.send action points).replayed k ↔ c.current = .open ∧ Listed listeners p) :
    Sound ({ c with listeners := listeners }.send action points) :=
  { alive := h.alive
    timers := h.timers
    refreshes := h.refreshes
    single := h.single
    closed := h.closed
    filled := hfilled
    fresh := h.fresh
    sent := lt_of_mem_send h.sent h.fresh
    replayed := hreplayed }

theorem Sound.relist {listeners : OrderedDict String (List F)} (h : c.Sound)
    (hfilled : Filled listeners) (hnot : c.current ≠ .open) :
    Sound { c with listeners := listeners } :=
  { h with
    filled := hfilled
    replayed := fun k hk p ↦
      ⟨fun hp ↦ absurd ((h.replayed k hk p).mp hp).1 hnot, fun ⟨hopen, _⟩ ↦ absurd hopen hnot⟩ }

section Calls

variable [DecidableEq F] {points : List String} {listener : F}

theorem Valid.subscribe (h : c.Valid) : (c.subscribe points listener).Valid := by
  have hadds := adds_foldl h.filled listener points
  rw [LiveConnection.subscribe]
  generalize points.foldl (listen listener) (c.listeners, []) = acc at hadds ⊢
  obtain ⟨listeners, added⟩ := acc
  obtain ⟨hfilled, hlisted⟩ := hadds
  dsimp only
  split
  · rename_i hnone
    exact Idle.connect { h.toSound.idle (h.toSound.links_eq_zero.mpr hnone) with filled := hfilled }
  rename_i hnot
  have hlinks := h.toSound.links_eq_one hnot
  split
  · rename_i hopen
    refine ⟨h.toSound.send hfilled fun k hk p ↦ ?_, fun _ ↦ hlinks⟩
    rw [mem_replayed_subscribe hk, h.replayed k hk, hlisted]
    tauto
  · exact ⟨h.toSound.relist hfilled ‹_›, fun _ ↦ hlinks⟩

theorem Valid.unsubscribe (h : c.Valid) : (c.unsubscribe points listener).Valid := by
  have hdrops := drops_foldl h.filled listener points
  rw [LiveConnection.unsubscribe]
  generalize points.foldl (unlisten listener) (c.listeners, []) = acc at hdrops ⊢
  obtain ⟨listeners, removed⟩ := acc
  obtain ⟨hfilled, hlisted⟩ := hdrops
  dsimp only
  -- The client has told the server, if it could.
  obtain ⟨c', htold, hsound, hlisteners, halarms, hlinks⟩ : ∃ c',
      (if c.current = .open then { c with listeners := listeners }.send .unsubscribe removed
        else { c with listeners := listeners }) = c' ∧ c'.Sound ∧ c'.listeners = listeners ∧
      c'.alarmListeners = c.alarmListeners ∧ c'.links = c.links := by
    refine ⟨_, rfl, ?_⟩
    split
    · refine ⟨h.toSound.send hfilled fun k hk p ↦ ?_, rfl, rfl, rfl⟩
      rw [mem_replayed_unsubscribe hk, h.replayed k hk, hlisted]
      tauto
    · exact ⟨h.toSound.relist hfilled ‹_›, rfl, rfl, rfl⟩
  rw [htold]
  split
  · rename_i hwanted
    refine ⟨hsound, fun _ ↦ hlinks.trans (h.wanted ?_)⟩
    rw [wanted_iff, hlisteners, halarms] at hwanted
    exact wanted_iff.mpr (hwanted.imp_left fun ⟨p, hp⟩ ↦ ⟨p, ((hlisted p).mp hp).1⟩)
  · exact hsound.disconnect ‹_›

theorem Valid.subscribeAlarms (h : c.Valid) : (c.subscribeAlarms listener).Valid := by
  rw [LiveConnection.subscribeAlarms, connectOnce]
  split
  · rename_i hnone
    exact Idle.connect { h.toSound.idle (h.toSound.links_eq_zero.mpr hnone) with }
  · exact ⟨{ h.toSound with }, fun _ ↦ h.toSound.links_eq_one ‹_›⟩

theorem Valid.unsubscribeAlarms (h : c.Valid) : (c.unsubscribeAlarms listener).Valid := by
  rw [LiveConnection.unsubscribeAlarms]
  split
  · rename_i hw
    refine ⟨{ h.toSound with }, fun _ ↦ h.wanted (wanted_iff.mpr ((wanted_iff.mp hw).imp_right ?_))⟩
    intro hne hnil
    refine hne ?_
    rw [hnil]
    rfl
  · exact Sound.disconnect { h.toSound with } ‹_›

end Calls

/-! ## Events of a socket -/

variable {socket : ℕ}

theorem mem_keys_iff : p ∈ c.listeners.entries.map Prod.fst ↔ Listed c.listeners p := by
  rw [Listed, Option.isSome_iff_ne_none, ne_eq, OrderedDict.get?_eq_none_iff, not_not]

/-- The events of a socket that is not the current one change nothing. -/
theorem Sound.handle_of_ne (h : c.Sound) (hne : c.socket ≠ some socket) (event : SocketEvent) :
    c.handle options texts socket event = c := by
  cases event with
  | opens => exact if_pos hne
  | receives data => exact if_neg hne
  | closes code random =>
    have halive : c.alive.filter (· ≠ socket) = c.alive := by
      refine List.filter_eq_self.mpr fun k hk ↦ ?_
      rw [h.alive, Option.mem_toList] at hk
      rw [decide_eq_true_iff]
      rintro rfl
      exact hne hk
    rw [handle, onclose, halive]
    exact if_pos hne

theorem Valid.onopen (h : c.Valid) (hsocket : c.socket = some socket) :
    (c.onopen socket).Valid := by
  have hsome : c.socket ≠ none := by rw [hsocket]; exact Option.some_ne_none _
  have hopen : LiveState.open ≠ .closed := by decide
  obtain ⟨calls, hstate⟩ := setState_eq { c with attempts := 0 } .open
  rw [LiveConnection.onopen, if_neg (not_not.mpr hsocket)]
  dsimp only
  rw [hstate]
  exact
    { alive := h.alive
      timers := h.timers
      refreshes := h.refreshes
      single := h.single
      closed := iff_of_false hsome hopen
      filled := h.filled
      fresh := h.fresh
      sent := lt_of_mem_send h.sent h.fresh
      replayed := by
        intro k hk p
        refine Iff.trans (mem_replayed_subscribe
          (c := { c with attempts := 0, current := .open, calls := calls }) hk _) ?_
        constructor
        · rintro (hp | hp)
          · exact ⟨rfl, ((h.replayed k hk p).mp hp).2⟩
          · exact ⟨rfl, mem_keys_iff.mp hp⟩
        · exact fun hp ↦ .inr (mem_keys_iff.mpr hp.2)
      wanted := fun hw ↦ h.wanted hw }

theorem Valid.onclose (h : c.Valid) (hsocket : c.socket = some socket) (code : ℕ) (random : ℚ) :
    (c.onclose options socket code random).Valid := by
  obtain ⟨htimers, hrefreshes, hretry, hreconnecting⟩ := h.toSound.alone hsocket
  have halive : c.alive.filter (· ≠ socket) = [] := by
    rw [h.alive, hsocket]
    simp
  rw [LiveConnection.onclose, halive, if_neg (not_not.mpr hsocket)]
  obtain ⟨calls, hstate⟩ := setState_eq { c with alive := [], socket := none } .closed
  dsimp only
  rw [hstate]
  have hidle : Idle { c with alive := [], socket := none, current := .closed, calls := calls } :=
    ⟨rfl, rfl, htimers, hrefreshes, rfl, h.filled, h.sent⟩
  split
  · exact hidle.reconnect hretry code random
  · exact hidle.valid hretry hreconnecting ‹_›

end Steps

/-! ## Runs -/

variable {options : LiveOptions} {texts : LiveTexts E}

theorem valid_new : Valid ({} : LiveConnection F E) :=
  { alive := rfl
    timers := rfl
    refreshes := rfl
    single := Nat.zero_le 1
    closed := iff_of_true rfl rfl
    filled := fun p group h ↦ absurd h (by simp)
    fresh := fun k hk ↦ absurd hk (by simp)
    sent := fun m hm ↦ absurd hm List.not_mem_nil
    replayed := fun k hk ↦ absurd hk (by simp)
    wanted := fun hw ↦ absurd hw (by simp [wanted, OrderedDict.empty]) }

theorem Valid.dispatch (h : c.Valid) (data : Option String) : (c.dispatch texts data).Valid := by
  have hcalls (calls : List (LiveCall F E)) : Valid { c with calls := calls } := { h with }
  rw [LiveConnection.dispatch]
  split
  · exact h
  split
  · exact hcalls _
  · dsimp only
    split
    · exact h
    · exact hcalls _
  · exact h

theorem Valid.handle (h : c.Valid) (socket : ℕ) (event : SocketEvent) :
    (c.handle options texts socket event).Valid := by
  by_cases hsocket : c.socket = some socket
  · cases event with
    | opens => exact h.onopen hsocket
    | receives data =>
      rw [LiveConnection.handle, onmessage, if_pos hsocket]
      exact h.dispatch data
    | closes code random => exact h.onclose hsocket code random
  · rw [h.toSound.handle_of_ne hsocket]
    exact h

theorem Valid.idle_of_refreshes (h : c.Valid) (hne : c.refreshes ≠ 0) :
    Idle { c with refreshes := c.refreshes - 1 } := by
  have hsingle := h.single
  rw [links] at hsingle
  have hsocket : c.socket = none := by
    rw [← Option.toList_eq_nil_iff, ← List.length_eq_zero_iff]
    omega
  have htimers : c.timers = [] := List.length_eq_zero_iff.mp (by omega)
  have hrefreshes : c.refreshes - 1 = 0 := by omega
  exact ⟨hsocket, by rw [h.alive, hsocket]; rfl, htimers, hrefreshes, h.closed.mp hsocket,
    h.filled, h.sent⟩

theorem Valid.idle_of_mem_timers {timer : RetryTimer} (h : c.Valid) (htimer : timer ∈ c.timers) :
    Idle { c with timers := c.timers.filter (· ≠ timer) } ∧ c.reconnecting = false := by
  have hsingle := h.single
  have hpos := List.length_pos_of_mem htimer
  rw [links] at hsingle
  have hsocket : c.socket = none := by
    rw [← Option.toList_eq_nil_iff, ← List.length_eq_zero_iff]
    omega
  have hrefreshes : c.refreshes = 0 := by omega
  obtain ⟨only, honly⟩ := List.length_eq_one_iff.mp (by omega : c.timers.length = 1)
  have htimers : c.timers.filter (· ≠ timer) = [] := by
    rw [honly, List.mem_singleton] at htimer
    rw [honly, htimer]
    simp
  have hflag := h.refreshes
  rw [hrefreshes] at hflag
  refine ⟨⟨hsocket, by rw [h.alive, hsocket]; rfl, htimers, hrefreshes, h.closed.mp hsocket,
    h.filled, h.sent⟩, ?_⟩
  cases hreconnecting : c.reconnecting with
  | false => rfl
  | true =>
    rw [hreconnecting] at hflag
    simp at hflag

/-- A point has a listener. -/
def Hears (c : LiveConnection F E) (p : String) : Prop :=
  ∃ group, c.listeners.get? p = some group ∧ ∃ listener, listener ∈ group

theorem Sound.hears_iff (h : c.Sound) : c.Hears p ↔ Listed c.listeners p := by
  rw [Hears, Listed, Option.isSome_iff_exists]
  refine exists_congr fun group ↦ and_iff_left_of_imp fun hgroup ↦ ?_
  exact List.exists_mem_of_ne_nil _ (h.filled p group hgroup)

variable [DecidableEq F]

theorem Valid.step (h : c.Valid) (label : LiveLabel F) : (c.step options texts label).Valid := by
  cases label with
  | subscribe points listener => exact h.subscribe
  | unsubscribe points listener => exact h.unsubscribe
  | subscribeAlarms listener => exact h.subscribeAlarms
  | unsubscribeAlarms listener => exact h.unsubscribeAlarms
  | onState listener => exact { h with }
  | offState listener => exact { h with }
  | event socket event => exact h.handle socket event
  | refreshed outcome random =>
    rw [LiveConnection.step]
    split
    · exact h
    · exact (h.idle_of_refreshes ‹_›).resume outcome random
  | fires timer =>
    rw [LiveConnection.step]
    split
    · obtain ⟨hidle, hreconnecting⟩ := h.idle_of_mem_timers ‹_›
      exact hidle.retries hreconnecting
    · exact h

theorem valid_run (options : LiveOptions) (texts : LiveTexts E) (labels : List (LiveLabel F)) :
    (run options texts labels).Valid := by
  suffices h : ∀ c : LiveConnection F E, c.Valid → (labels.foldl (step options texts) c).Valid from
    h _ valid_new
  induction labels with
  | nil => exact fun c h ↦ h
  | cons label labels ih => exact fun c h ↦ ih _ (h.step label)

/-- **The connection, in any order of events.** The sockets in use are the current one, if there is
one; as long as there is a listener there is a socket, an armed timer or a renewal in progress; the
events of another socket change nothing; and while the state is open, the messages sent on the
current socket ask, once replayed, for the points that have a listener. -/
theorem live_run (options : LiveOptions) (texts : LiveTexts E) (labels : List (LiveLabel F)) :
    let c := run options texts labels
    c.alive = c.socket.toList ∧
      ((∃ p, c.Hears p) ∨ c.alarmListeners ≠ [] →
        c.socket ≠ none ∨ c.timers ≠ [] ∨ 0 < c.refreshes) ∧
      (∀ socket, c.socket ≠ some socket → ∀ event,
        c.step options texts (.event socket event) = c) ∧
      (c.current = .open → ∃ socket, c.socket = some socket ∧
        ∀ p, p ∈ c.replayed socket ↔ c.Hears p) := by
  have h := valid_run options texts labels
  generalize run options texts labels = c at h
  refine ⟨h.alive, fun hheard ↦ ?_, fun socket hne ↦ h.toSound.handle_of_ne hne, fun hopen ↦ ?_⟩
  · have hlinks := h.wanted (wanted_iff.mpr
      (hheard.imp_left fun ⟨p, hp⟩ ↦ ⟨p, h.toSound.hears_iff.mp hp⟩))
    have hne : c.links ≠ 0 := by omega
    rw [ne_eq, links_eq_zero_iff] at hne
    rw [← Nat.ne_zero_iff_zero_lt]
    tauto
  · cases hsocket : c.socket with
    | none =>
      have hclosed := h.closed.mp hsocket
      rw [hopen] at hclosed
      exact absurd hclosed (by simp)
    | some socket =>
      refine ⟨socket, rfl, fun p ↦ ?_⟩
      rw [h.replayed socket hsocket, h.toSound.hears_iff]
      exact and_iff_right hopen

/-- Everybody leaves during a renewal, and another listener comes: the new socket is asked for its
point alone. -/
example : (run ⟨true, 1000, 30000⟩ ⟨fun _ ↦ none, fun _ ↦ .nan⟩
    [.subscribe ["a"] 0, .event 0 .opens, .event 0 (.closes 4401 0), .unsubscribe ["a"] 0,
      .subscribe ["b"] 1, .refreshed (some true) 0, .event 1 .opens] :
      LiveConnection (Fin 2) Unit).replayed 1 = ["b"] := by
  decide

/-! ## The client of the viewer -/

/-- The client as the viewer takes it: its state, its listeners, and the points of the `subscribe`
messages sent on its socket. -/
def viewed (c : LiveConnection Listener E) : LiveClient where
  state := c.current
  listeners := c.listeners.entries
  sent := c.socket.toList.flatMap fun socket ↦
    ((c.sentOn socket).filter fun m ↦ m.action = .subscribe).map SentMessage.points

theorem entries_listen (listener : Listener)
    (acc : OrderedDict String (List Listener) × List String) (point : String) :
    LiveClient.listen listener (acc.1.entries, acc.2) point =
      ((listen listener acc point).1.entries, (listen listener acc point).2) := by
  obtain ⟨d, added⟩ := acc
  rw [LiveClient.listen, listen]
  dsimp only
  rw [Groups.update, Groups.keys]
  cases hget : d.get? point with
  | none =>
    have hkey := OrderedDict.get?_eq_none_iff.mp hget
    dsimp only
    rw [if_neg hkey, if_neg hkey, OrderedDict.insert, dif_neg hkey, if_neg List.not_mem_nil]
    rfl
  | some group =>
    have hkey : point ∈ d.entries.map Prod.fst :=
      List.mem_map_of_mem (f := Prod.fst) (OrderedDict.mem_entries_iff.mpr hget)
    dsimp only
    rw [if_pos hkey, if_pos hkey, OrderedDict.insert, dif_pos hkey]
    refine Prod.ext (List.map_congr_left fun e he ↦ ?_) rfl
    split
    · rename_i hpoint
      rw [← hpoint] at hget
      rw [Option.some.inj ((OrderedDict.mem_entries_iff.mp he).symm.trans hget), join]
    · rfl

theorem entries_foldl_listen (listener : Listener) (points : List String)
    (acc : OrderedDict String (List Listener) × List String) :
    points.foldl (LiveClient.listen listener) (acc.1.entries, acc.2) =
      ((points.foldl (listen listener) acc).1.entries, (points.foldl (listen listener) acc).2) := by
  induction points generalizing acc with
  | nil => rfl
  | cons point points ih => rw [List.foldl_cons, List.foldl_cons, entries_listen, ih]

theorem sent_viewed_send {socket : ℕ} {c : LiveConnection Listener E}
    (hsocket : c.socket = some socket) (points : List String) :
    (c.send .subscribe points).viewed = c.viewed.send points := by
  have hchunks (chunks : List (List String)) :
      ((chunks.map (SentMessage.mk .subscribe)).filter fun m ↦ m.action = .subscribe).map
        SentMessage.points = chunks := by
    rw [List.filter_eq_self.mpr, List.map_map]
    · exact List.map_id _
    · intro m hm
      obtain ⟨chunk, -, rfl⟩ := List.mem_map.mp hm
      rfl
  rw [viewed, viewed, LiveClient.send]
  have hsend : (c.send .subscribe points).socket = some socket := hsocket
  rw [hsend, hsocket, Option.toList_some, List.flatMap_singleton, List.flatMap_singleton,
    sentOn_send hsocket, List.filter_append, List.map_append, hchunks]
  rfl

/-- Where no retry and no renewal is pending, the viewer subscribes as it would with its own client:
`LiveClient` is what it sees of the connection. -/
theorem Valid.viewed_subscribe {c : LiveConnection Listener E} (h : c.Valid)
    (hretry : c.cancelRetry = none) (hreconnecting : c.reconnecting = false) (points : List String)
    (listener : Listener) :
    (c.subscribe points listener).viewed = c.viewed.subscribe points listener := by
  have hfold := entries_foldl_listen listener points (c.listeners, [])
  rw [LiveConnection.subscribe, LiveClient.subscribe]
  have hlisteners : c.viewed.listeners = c.listeners.entries := rfl
  rw [hlisteners, hfold]
  generalize points.foldl (listen listener) (c.listeners, []) = acc at hfold ⊢
  obtain ⟨listeners, added⟩ := acc
  dsimp only at hfold ⊢
  by_cases hsocket : c.socket = none
  · -- A new socket, on which nothing has been sent.
    have hclosed : c.viewed.state = .closed := h.closed.mp hsocket
    have hnil : ((c.sentOn c.created).filter fun m ↦ m.action = .subscribe).map
        SentMessage.points = [] := by
      rw [sentOn_eq_nil h.sent]
      rfl
    obtain ⟨calls, hstate⟩ := setState_eq
      { c with listeners := listeners, cancelRetry := none, reconnecting := false } .connecting
    rw [if_pos ⟨hsocket, hretry, hreconnecting⟩, hclosed, LiveConnection.connect, hstate]
    refine LiveClient.mk.injEq .. |>.mpr ⟨rfl, rfl, ?_⟩
    refine (List.flatMap_singleton _ _).trans (hnil.trans ?_)
    rw [viewed, hsocket]
    rfl
  · obtain ⟨socket, hsome⟩ := Option.ne_none_iff_exists'.mp hsocket
    rw [if_neg fun hnone ↦ hsocket hnone.1]
    cases hcurrent : c.current with
    | closed => exact absurd (h.closed.mpr hcurrent) hsocket
    | connecting =>
      have hstate : c.viewed.state = .connecting := hcurrent
      rw [if_neg (by decide), hstate]
      rfl
    | «open» =>
      have hstate : c.viewed.state = .open := hcurrent
      rw [if_pos rfl, hstate, sent_viewed_send
        (c := { c with current := .open, listeners := listeners }) hsome]
      rfl

theorem viewed_onopen {socket : ℕ} {c : LiveConnection Listener E}
    (hsocket : c.socket = some socket) : (c.onopen socket).viewed = c.viewed.onopen := by
  obtain ⟨calls, hstate⟩ := setState_eq { c with attempts := 0 } .open
  rw [LiveConnection.onopen, if_neg (not_not.mpr hsocket)]
  dsimp only
  rw [hstate, sent_viewed_send (c := { c with attempts := 0, current := .open, calls := calls })
    hsocket]
  rfl

end LiveConnection

end Superviseur
