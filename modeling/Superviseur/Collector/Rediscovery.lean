import Superviseur.Collector.Feed

/-!
# Newer and older values

A value that is dated long after the device gave it may come out newer than one that was given, and
dated, in between. This is where a discovery goes wrong, as it dates a whole inventory at its end;
a batch of `ReadProperty` requests does the same on a smaller scale. Where no value is dated after
one of its point that the device gave later, and the recorder does not handle a reading after one
with a later date, the last reading of each point carries the last value.
-/

namespace Superviseur

/-- Readings of one point whose values the device gave in this order, or readings of two points. -/
def Dated.TakenBy (x y : Dated) : Prop := x.reading.pointId = y.reading.pointId → x.taken ≤ y.taken

/-- Readings of one point dated in this order, or readings of two points. -/
def Dated.DatedBy (x y : Dated) : Prop :=
  x.reading.pointId = y.reading.pointId →
    x.reading.ts < y.reading.ts ∨ x.reading.ts = y.reading.ts ∧ x.taken ≤ y.taken

instance (x y : Dated) : Decidable (x.TakenBy y) := inferInstanceAs (Decidable (_ → _))

instance (x y : Dated) : Decidable (x.DatedBy y) := inferInstanceAs (Decidable (_ → _))

namespace Feed

/-- No value is dated after one of its point that was taken later, and no reading is published, or
recorded, after one of its point that is dated later. -/
def InOrder (s : Feed) : Event → Prop
  | .stamp job => ∀ y ∈ s.batch (some job), ∀ x ∈ s.dated, x.TakenBy y
  | .replace devices => ∀ y ∈ s.firstReadings (s.registry.replace devices), ∀ x ∈ s.dated,
      x.TakenBy y
  | .publish job true => ∀ y ∈ (s.tasks job).current, ∀ x ∈ s.published, x.DatedBy y
  | .record job => ∀ y ∈ (s.tasks job).current, ∀ x ∈ s.handled, x.DatedBy y
  | _ => True

instance (s : Feed) : (e : Event) → Decidable (InOrder s e)
  | .stamp job => inferInstanceAs (Decidable (∀ y ∈ s.batch (some job), _))
  | .replace devices =>
    inferInstanceAs (Decidable (∀ y ∈ s.firstReadings (s.registry.replace devices), _))
  | .publish job true => inferInstanceAs (Decidable (∀ y ∈ (s.tasks job).current, _))
  | .record job => inferInstanceAs (Decidable (∀ y ∈ (s.tasks job).current, _))
  | .publish _ false | .tick _ | .read _ _ | .answer _ _ _ | .refuse _ | .drop _ | .notify _ _ _ _
  | .handle _ | .discover _ | .describe _ _ | .imported _ | .skipped _ | .abort => .isTrue trivial

/-- The last reading of a point. -/
def lastDated (p : Uuid) (log : List Dated) : Option Dated :=
  (log.filter fun d ↦ d.reading.pointId = p).getLast?

/-- The last reading of each point carries the value the device gave last. -/
def EndsNewest (log : List Dated) : Prop :=
  ∀ p, ∀ last ∈ lastDated p log, ∀ x ∈ log, x.reading.pointId = p → x.taken ≤ last.taken

/-- Among the readings handled, a later date is that of a value taken no earlier, and the last one
published, like the last one recorded, carries the newest value. -/
structure NeverOlder (s : Feed) : Prop where
  later : ∀ x ∈ s.handled, ∀ y ∈ s.handled, x.reading.ts < y.reading.ts → x.TakenBy y
  published : EndsNewest s.published
  recorded : EndsNewest s.handled

/-- A log of readings already dated, the values of each point in the order they were taken. -/
structure Chronicle (s : Feed) (log : List Dated) : Prop where
  dated : ∀ d ∈ log, d ∈ s.dated
  ordered : log.Pairwise Dated.TakenBy

/-- What every state satisfies where values are dated in order. -/
structure Valid (s : Feed) : Prop where
  past : ∀ x ∈ s.dated, x.reading.ts ≤ s.clock ∧ x.taken ≤ s.clock
  later : ∀ x ∈ s.dated, ∀ y ∈ s.dated, x.reading.ts < y.reading.ts → x.TakenBy y
  answers : ∀ job, ∀ a ∈ (s.tasks job).answers, a.taken ≤ s.clock
  queued : ∀ job, ∀ d ∈ (s.tasks job).queue, d ∈ s.dated
  objects : ∀ d ∈ s.discovery, ∀ entry ∈ d.left ++ d.inventory, ∀ f ∈ entry.2, f.taken ≤ s.clock
  published : Chronicle s s.published
  handled : Chronicle s s.handled

variable {prefixes : List String} {s s' : Feed} {e : Event} {log : List Dated} {d : Dated}

theorem Chronicle.endsNewest (h : Chronicle s log) : EndsNewest log := by
  intro p last hlast x hx hp
  have hpairwise : (log.filter fun d ↦ d.reading.pointId = p).Pairwise Dated.TakenBy :=
    h.ordered.filter _
  obtain ⟨before, hbefore⟩ := List.getLast?_eq_some_iff.mp hlast
  have hmem : x ∈ before ++ [last] := by
    rw [← hbefore]
    exact List.mem_filter.mpr ⟨hx, decide_eq_true hp⟩
  rw [hbefore] at hpairwise
  rcases List.mem_append.mp hmem with hmem | hmem
  · have hlastp : last.reading.pointId = p := by
      have hin : last ∈ log.filter fun d ↦ d.reading.pointId = p := by
        rw [hbefore]
        exact List.mem_append_right _ (List.mem_singleton_self _)
      exact of_decide_eq_true (List.mem_filter.mp hin).2
    exact (List.pairwise_append.mp hpairwise).2.2 x hmem last (List.mem_singleton_self _)
      (hp.trans hlastp.symm)
  · rw [List.mem_singleton.mp hmem]

theorem Valid.neverOlder (h : Valid s) : NeverOlder s where
  later x hx y hy := h.later x (h.handled.dated x hx) y (h.handled.dated y hy)
  published := h.published.endsNewest
  recorded := h.handled.endsNewest

theorem Valid.append (h : Valid s) (hlog : Chronicle s log) (hd : d ∈ s.dated)
    (hafter : ∀ x ∈ log, x.DatedBy d) : Chronicle s (log ++ [d]) where
  dated x hx := by
    rcases List.mem_append.mp hx with hx | hx
    · exact hlog.dated x hx
    · rwa [List.mem_singleton.mp hx]
  ordered := by
    refine List.pairwise_append.mpr ⟨hlog.ordered, List.pairwise_singleton _ _, ?_⟩
    intro x hx y hy
    obtain rfl := List.mem_singleton.mp hy
    intro hp
    rcases hafter x hx hp with hlt | ⟨-, hle⟩
    · exact h.later x (hlog.dated x hx) y hd hlt hp
    · exact hle

theorem Valid.update (h : Valid s) {job : Option ℕ} {task : Task}
    (hanswers : ∀ a ∈ task.answers, a.taken ≤ s.clock) (hqueue : ∀ d ∈ task.queue, d ∈ s.dated) :
    Valid { s with tasks := Function.update s.tasks job task } where
  past := h.past
  later := h.later
  answers j := by
    by_cases hj : j = job
    · subst hj
      simpa only [Function.update_self] using hanswers
    · simpa only [Function.update_of_ne hj] using h.answers j
  queued j := by
    by_cases hj : j = job
    · subst hj
      simpa only [Function.update_self] using hqueue
    · simpa only [Function.update_of_ne hj] using h.queued j
  objects := h.objects
  published := ⟨h.published.dated, h.published.ordered⟩
  handled := ⟨h.handled.dated, h.handled.ordered⟩

/-- Values are dated now, and none of them is older than one of its point dated before. -/
theorem Valid.give (h : Valid s) {job : Option ℕ} {readings : List Dated}
    (hnow : ∀ y ∈ readings, y.reading.ts = s.clock ∧ y.taken ≤ s.clock)
    (horder : ∀ y ∈ readings, ∀ x ∈ s.dated, x.TakenBy y) : Valid (s.give job readings) where
  past x hx := by
    rcases List.mem_append.mp hx with hx | hx
    · exact h.past x hx
    · exact ⟨(hnow x hx).1.le, (hnow x hx).2⟩
  later x hx y hy hlt := by
    rcases List.mem_append.mp hy with hy | hy
    · rcases List.mem_append.mp hx with hx | hx
      · exact h.later x hx y hy hlt
      · exact absurd hlt (not_lt.mpr ((h.past y hy).1.trans_eq (hnow x hx).1.symm))
    · rcases List.mem_append.mp hx with hx | hx
      · exact horder y hy x hx
      · exact absurd hlt (not_lt.mpr ((hnow y hy).1.trans (hnow x hx).1.symm).le)
  answers j := by
    by_cases hj : j = job
    · subst hj
      simp [Feed.give, Task.answers]
    · simpa only [Feed.give, Function.update_of_ne hj] using h.answers j
  queued j d hd := by
    by_cases hj : j = job
    · subst hj
      simp only [Feed.give, Function.update_self] at hd
      exact List.mem_append_right _ hd
    · simp only [Feed.give, Function.update_of_ne hj] at hd
      exact List.mem_append_left _ (h.queued j d hd)
  objects := h.objects
  published := ⟨fun d hd ↦ List.mem_append_left _ (h.published.dated d hd), h.published.ordered⟩
  handled := ⟨fun d hd ↦ List.mem_append_left _ (h.handled.dated d hd), h.handled.ordered⟩

theorem Valid.setDiscovery (h : Valid s) {d : Inventory}
    (hobjects : ∀ entry ∈ d.left ++ d.inventory, ∀ f ∈ entry.2, f.taken ≤ s.clock) :
    Valid { s with discovery := some d } :=
  ⟨h.past, h.later, h.answers, h.queued, fun _ hd ↦ Option.some.inj hd ▸ hobjects,
    ⟨h.published.dated, h.published.ordered⟩, ⟨h.handled.dated, h.handled.ordered⟩⟩

theorem Valid.endDiscovery (h : Valid s) (registry : Registry) :
    Valid { s with
      registry := registry
      discovery := none } :=
  ⟨h.past, h.later, h.answers, h.queued, by simp, ⟨h.published.dated, h.published.ordered⟩,
    ⟨h.handled.dated, h.handled.ordered⟩⟩

/-! ### The producers -/

theorem Valid.tick (h : Valid s) {now : Instant} (hle : s.clock ≤ now) :
    Valid { s with clock := now } :=
  ⟨fun x hx ↦ ⟨(h.past x hx).1.trans hle, (h.past x hx).2.trans hle⟩, h.later,
    fun job a ha ↦ (h.answers job a ha).trans hle, h.queued,
    fun d hd entry hentry f hf ↦ (h.objects d hd entry hentry f hf).trans hle,
    ⟨h.published.dated, h.published.ordered⟩, ⟨h.handled.dated, h.handled.ordered⟩⟩

theorem Valid.answer (h : Valid s) {job : Option ℕ} {refs refs' : List PointRef}
    {answers : List Taken} (hjob : s.tasks job = .reading refs answers) (id : Uuid)
    (value : Option PyFloat) (status : PointStatus) :
    Valid { s with
      tasks := Function.update s.tasks job
        (.reading refs' (answers ++ [⟨id, value, status, s.clock⟩])) } := by
  refine h.update (fun a ha ↦ ?_) (by simp [Task.queue])
  rcases List.mem_append.mp ha with ha | ha
  · exact h.answers job a (by rwa [hjob])
  · rw [List.mem_singleton.mp ha]

theorem Valid.mem_dated (h : Valid s) {job : Option ℕ} {queue : List Dated}
    (hqueue : (s.tasks job).queue = queue) : ∀ x ∈ queue, x ∈ s.dated := by
  subst hqueue
  exact h.queued job

/-- A producer gives its next reading: it is unknown, or the recorder takes it. -/
theorem Valid.handle (h : Valid s) {job : Option ℕ} {rest : List Dated}
    (hjob : s.tasks job = .giving (d :: rest)) :
    Valid { s with tasks := Function.update s.tasks job (.giving rest) } ∧
      Valid { s with tasks := Function.update s.tasks job (.handling d rest false) } := by
  have hqueued := h.mem_dated (congrArg Task.queue hjob)
  exact ⟨h.update (by simp [Task.answers]) fun x hx ↦ hqueued x (List.mem_cons_of_mem _ hx),
    h.update (by simp [Task.answers]) hqueued⟩

theorem Valid.publish (h : Valid s) {job : Option ℕ} {ok : Bool} {rest : List Dated}
    (hjob : s.tasks job = .handling d rest false) (horder : InOrder s (.publish job ok)) :
    Valid { s with
      tasks := Function.update s.tasks job (.handling d rest true)
      published := if ok then s.published ++ [d] else s.published } := by
  have hqueued := h.mem_dated (congrArg Task.queue hjob)
  have hgoes : Valid { s with tasks := Function.update s.tasks job (.handling d rest true) } :=
    h.update (by simp [Task.answers]) hqueued
  cases ok with
  | false => exact hgoes
  | true =>
    have hafter : ∀ x ∈ s.published, x.DatedBy d := horder d (by rw [hjob]; rfl)
    have hlog : Chronicle s (s.published ++ [d]) :=
      h.append h.published (hqueued d List.mem_cons_self) hafter
    exact { hgoes with published := ⟨hlog.dated, hlog.ordered⟩
                       handled := ⟨h.handled.dated, h.handled.ordered⟩ }

theorem Valid.record (h : Valid s) {job : Option ℕ} {rest : List Dated}
    (hjob : s.tasks job = .handling d rest true) (horder : InOrder s (.record job)) :
    Valid { s with
      tasks := Function.update s.tasks job (.giving rest)
      handled := s.handled ++ [d] } := by
  have hqueued := h.mem_dated (congrArg Task.queue hjob)
  have hgoes : Valid { s with tasks := Function.update s.tasks job (.giving rest) } :=
    h.update (by simp [Task.answers]) fun x hx ↦ hqueued x (List.mem_cons_of_mem _ hx)
  have hafter : ∀ x ∈ s.handled, x.DatedBy d := horder d (by rw [hjob]; rfl)
  have hlog : Chronicle s (s.handled ++ [d]) :=
    h.append h.handled (hqueued d List.mem_cons_self) hafter
  exact { hgoes with published := ⟨h.published.dated, h.published.ordered⟩
                     handled := ⟨hlog.dated, hlog.ordered⟩ }

/-! ### The discovery -/

theorem Valid.discover (h : Valid s) (devices : List ℤ) :
    Valid { s with discovery := some ⟨devices.map fun d ↦ (d, []), []⟩ } := by
  refine h.setDiscovery fun entry hentry f hf ↦ ?_
  rw [List.append_nil] at hentry
  obtain ⟨device, -, rfl⟩ := List.mem_map.mp hentry
  simp at hf

theorem Valid.describe (h : Valid s) {inventory : Inventory} (hd : s.discovery = some inventory)
    (i : ℕ) (object : ObjectInfo) :
    Valid { s with discovery := some { inventory with
      left := inventory.left.modify i fun entry ↦
        (entry.1, entry.2 ++ [⟨object, s.clock⟩]) } } := by
  refine h.setDiscovery fun entry hentry f hf ↦ ?_
  rcases List.mem_append.mp hentry with hentry | hentry
  · obtain ⟨j, hj⟩ := List.mem_iff_getElem?.mp hentry
    rw [List.getElem?_modify] at hj
    obtain ⟨before, hbefore, hentry⟩ := Option.map_eq_some_iff.mp hj
    have hpast : ∀ f ∈ before.2, f.taken ≤ s.clock :=
      h.objects inventory hd before (List.mem_append_left _ (List.mem_of_getElem? hbefore))
    split at hentry
    · rw [← hentry] at hf
      rcases List.mem_append.mp hf with hf | hf
      · exact hpast f hf
      · rw [List.mem_singleton.mp hf]
    · exact hpast f (by rwa [← hentry] at hf)
  · exact h.objects inventory hd entry (List.mem_append_right _ hentry) f hf

theorem Valid.imported (h : Valid s) {inventory : Inventory} (hd : s.discovery = some inventory)
    {i : ℕ} {device : ℤ} {objects : List Found}
    (hentry : inventory.left[i]? = some (device, objects)) (kept : Found → Bool) :
    Valid { s with discovery := some ⟨inventory.left.eraseIdx i,
      inventory.inventory ++ [(device, objects.filter kept)]⟩ } := by
  refine h.setDiscovery fun entry hmem f hf ↦ ?_
  rcases List.mem_append.mp hmem with hmem | hmem
  · exact h.objects inventory hd entry
      (List.mem_append_left _ (List.mem_of_mem_eraseIdx hmem)) f hf
  · rcases List.mem_append.mp hmem with hmem | hmem
    · exact h.objects inventory hd entry (List.mem_append_right _ hmem) f hf
    · rw [List.mem_singleton.mp hmem] at hf
      exact h.objects inventory hd _ (List.mem_append_left _ (List.mem_of_getElem? hentry)) f
        (List.mem_of_mem_filter hf)

theorem Valid.skipped (h : Valid s) {inventory : Inventory} (hd : s.discovery = some inventory)
    (i : ℕ) :
    Valid { s with discovery := some { inventory with left := inventory.left.eraseIdx i } } := by
  refine h.setDiscovery fun entry hmem f hf ↦ ?_
  rcases List.mem_append.mp hmem with hmem | hmem
  · exact h.objects inventory hd entry
      (List.mem_append_left _ (List.mem_of_mem_eraseIdx hmem)) f hf
  · exact h.objects inventory hd entry (List.mem_append_right _ hmem) f hf

theorem Valid.replace (h : Valid s) {left : List (ℤ × List Found)}
    {inventory : List (ℤ × List Found)} (hd : s.discovery = some ⟨left, inventory⟩)
    {devices : List DeviceState} (horder : InOrder s (.replace devices)) :
    Valid ({ s with
      registry := s.registry.replace devices
      discovery := none }.give none (s.firstReadings (s.registry.replace devices))) := by
  refine (h.endDiscovery (s.registry.replace devices)).give (fun y hy ↦ ?_) horder
  rw [firstReadings, hd] at hy
  obtain ⟨entry, hentry, hy⟩ := List.mem_flatMap.mp hy
  obtain ⟨f, hf, hy⟩ := List.mem_filterMap.mp hy
  obtain ⟨reading, hreading, rfl⟩ := Option.map_eq_some_iff.mp hy
  refine ⟨?_, h.objects _ hd entry (List.mem_append_right _ hentry) f hf⟩
  rw [ObjectInfo.reading] at hreading
  split at hreading
  · rw [← Option.some.inj hreading]
  · simp at hreading

/-! ### The steps -/

/-- **Step lemma.** -/
theorem Valid.step (h : Valid s) (horder : InOrder s e) (hnext : next prefixes s e = some s') :
    Valid s' := by
  cases e with
  | tick now =>
    simp only [next] at hnext
    split at hnext
    · rename_i hle
      obtain rfl := Option.some.inj hnext
      exact h.tick hle
    · simp at hnext
  | read job refs =>
    simp only [next] at hnext
    split at hnext
    · obtain rfl := Option.some.inj hnext
      exact h.update (by simp [Task.answers]) (by simp [Task.queue])
    · simp at hnext
  | answer job value status =>
    simp only [next] at hnext
    split at hnext
    · rename_i ref refs answers hjob
      obtain rfl := Option.some.inj hnext
      exact h.answer hjob ref.pointId value status
    · simp at hnext
  | stamp job =>
    simp only [next] at hnext
    split at hnext
    · obtain rfl := Option.some.inj hnext
      refine h.give (fun y hy ↦ ?_) horder
      obtain ⟨a, ha, rfl⟩ := List.mem_map.mp hy
      exact ⟨rfl, h.answers (some job) a ha⟩
    · simp at hnext
  | refuse job =>
    simp only [next] at hnext
    split at hnext
    · -- a fault is taken at the instant of its date
      obtain rfl := Option.some.inj hnext
      refine h.give (fun y hy ↦ ?_) (fun y hy x hx _ ↦ ?_)
      · obtain ⟨p, -, rfl⟩ := List.mem_map.mp hy
        exact ⟨rfl, le_rfl⟩
      · obtain ⟨p, -, rfl⟩ := List.mem_map.mp hy
        exact (h.past x hx).2
    · simp at hnext
  | drop job =>
    simp only [next] at hnext
    split at hnext
    · obtain rfl := Option.some.inj hnext
      exact h.update (by simp [Task.answers]) (by simp [Task.queue])
    · simp at hnext
  | notify job p value status =>
    simp only [next] at hnext
    split at hnext
    · obtain rfl := Option.some.inj hnext
      refine h.give (fun y hy ↦ ?_) (fun y hy x hx _ ↦ ?_)
      · rw [List.mem_singleton.mp hy]
        exact ⟨rfl, le_rfl⟩
      · rw [List.mem_singleton.mp hy]
        exact (h.past x hx).2
    · simp at hnext
  | handle job =>
    simp only [next] at hnext
    split at hnext
    · obtain rfl := Option.some.inj hnext
      exact h.update (by simp [Task.answers]) (by simp [Task.queue])
    · rename_i d rest hjob
      split at hnext
      · obtain rfl := Option.some.inj hnext
        exact (h.handle hjob).1
      · obtain rfl := Option.some.inj hnext
        exact (h.handle hjob).2
    · simp at hnext
  | publish job ok =>
    simp only [next] at hnext
    split at hnext
    · rename_i current rest hjob
      obtain rfl := Option.some.inj hnext
      exact h.publish hjob horder
    · simp at hnext
  | record job =>
    simp only [next] at hnext
    split at hnext
    · rename_i current rest hjob
      obtain rfl := Option.some.inj hnext
      exact h.record hjob horder
    · simp at hnext
  | discover devices =>
    simp only [next] at hnext
    split at hnext
    · obtain rfl := Option.some.inj hnext
      exact h.discover devices
    · simp at hnext
  | describe i object =>
    simp only [next] at hnext
    split at hnext
    · rename_i inventory hd
      obtain rfl := Option.some.inj hnext
      exact h.describe hd i object
    · simp at hnext
  | imported i =>
    simp only [next] at hnext
    split at hnext
    · rename_i inventory hd
      split at hnext
      · rename_i device objects hentry
        obtain rfl := Option.some.inj hnext
        exact h.imported hd hentry _
      · simp at hnext
    · simp at hnext
  | skipped i =>
    simp only [next] at hnext
    split at hnext
    · rename_i inventory hd
      obtain rfl := Option.some.inj hnext
      exact h.skipped hd i
    · simp at hnext
  | abort =>
    obtain rfl := Option.some.inj hnext
    exact h.endDiscovery s.registry
  | replace devices =>
    simp only [next] at hnext
    split at hnext
    · rename_i inventory hd
      obtain rfl := Option.some.inj hnext
      exact h.replace hd horder
    · simp at hnext

theorem valid_start (registry : Registry) (clock : Instant) : Valid (start registry clock) where
  past _ hx := nomatch hx
  later _ hx := nomatch hx
  answers _ _ ha := nomatch ha
  queued _ _ hd := nomatch hd
  objects _ hd := nomatch hd
  published := ⟨fun _ hd ↦ (nomatch hd), .nil⟩
  handled := ⟨fun _ hd ↦ (nomatch hd), .nil⟩

/-- **Newer values stay.** In a run where values are dated and handled in order, the readings of a
discovery never take the place of newer values. -/
theorem newer_stays {registry : Registry} {clock : Instant} {es : List Event}
    (hrun : Run prefixes InOrder (start registry clock) es s) : NeverOlder s :=
  (hrun.invariant Valid (fun h hstep ↦ h.step hstep.1 hstep.2)
      (valid_start registry clock)).neverOlder

/-! ## A notification during an inventory -/

/-- A device with one point. -/
def oneDevice : DeviceState :=
  .new 1 10 "10.0.0.5" "AHU-1" true true
    [.new ⟨1, 10, "10.0.0.5", "analog-value", 1⟩ none (.fin 0) 900 30 true]

/-- The object of the point, with a value. -/
def objectReading (value : ℚ) : ObjectInfo :=
  ⟨"analog-value", 1, "Temp", none, none, true, none, some (.fin value), .ok⟩

/-- The inventory of the device is read at 1. -/
def inventoryRead : List Event :=
  [.tick 1, .discover [10], .describe 0 (objectReading 20), .imported 0]

/-- The device notifies another value at an instant, and the recorder handles it. -/
def notified (now : Instant) (value : ℚ) : List Event :=
  [.tick now, .notify 1 1 (some (.fin value)) .ok, .handle (some 1), .publish (some 1) true,
    .record (some 1), .handle (some 1)]

/-- The registry is replaced at an instant, and the recorder handles the inventory. -/
def inventoryHandled (now : Instant) : List Event :=
  [.tick now, .replace [oneDevice], .handle none, .publish none true, .record none, .handle none]

/-- The date and the instant of taking of the readings handled. -/
def handledAt (s : Feed) : List (Instant × Instant) :=
  s.handled.map fun d ↦ (d.reading.ts, d.taken)

/-- The notification comes after the inventory was handled. -/
theorem newer_stays_notifiedAfter :
    ∃ s, Run [] InOrder (start ⟨[oneDevice]⟩ 0) (inventoryRead ++ inventoryHandled 2 ++
      notified 3 21) s ∧ handledAt s = [(2, 1), (3, 3)] ∧ NeverOlder s := by
  have hend : (Trace.exec (fun s e ↦ if InOrder s e then next [] s e else none)
      (start ⟨[oneDevice]⟩ 0)
      (inventoryRead ++ inventoryHandled 2 ++ notified 3 21)).map handledAt =
      some [(2, 1), (3, 3)] := by decide
  obtain ⟨s, hs, hend⟩ := Option.map_eq_some_iff.mp hend
  have hrun : Run [] InOrder (start ⟨[oneDevice]⟩ 0) (inventoryRead ++ inventoryHandled 2 ++
      notified 3 21) s := .of_exec_checked hs
  exact ⟨s, hrun, hend, newer_stays hrun⟩

/-- The device notifies a value while its inventory, read before, waits for its date: the older
value is handled last, under a later date. -/
theorem newer_overwritten :
    ¬ ∀ (registry : Registry) (es : List Event) (s : Feed),
      Run [] (fun _ _ ↦ True) (start registry 0) es s → NeverOlder s := by
  intro hneverOlder
  have hend : (Trace.exec (next []) (start ⟨[oneDevice]⟩ 0)
      (inventoryRead ++ notified 2 21 ++ inventoryHandled 3)).map Feed.handled =
      some [⟨⟨1, 2, some (.fin 21), .ok⟩, 2⟩, ⟨⟨1, 3, some (.fin 20), .ok⟩, 1⟩] := by decide
  obtain ⟨s, hs, hend⟩ := Option.map_eq_some_iff.mp hend
  have hnever := hneverOlder _ _ s (.of_exec (fun _ _ _ ↦ trivial) hs)
  have holder : (2 : Instant) ≤ 1 :=
    hnever.later ⟨⟨1, 2, some (.fin 21), .ok⟩, 2⟩ (by rw [hend]; exact List.mem_cons_self)
      ⟨⟨1, 3, some (.fin 20), .ok⟩, 1⟩
      (by rw [hend]; exact List.mem_cons_of_mem _ List.mem_cons_self)
      (by decide) rfl
  exact absurd holder (by decide)

end Feed

end Superviseur
