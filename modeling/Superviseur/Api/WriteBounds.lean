import Mathlib.Data.List.DropRight
import Superviseur.Collector.Store
import Superviseur.Common.Models
import Superviseur.Library.ReadCommitted
import Superviseur.Library.Unicode
import Superviseur.Library.UuidText

/-!
# The write bounds of a point

`PATCH /points/{id}` reads the point, puts the fields of the request over it, and refuses a minimum
above the maximum; then the ORM writes the columns that have changed, and no others. Two requests of
which one writes the minimum and the other the maximum may therefore leave bounds that neither has
compared.

This is the only way: where a request writes one of the two and the other is still as it was read,
bounds that are in order stay so (`bounds_ordered`). Otherwise it depends on what is stored
(`inOrder_set_iff`).

The author of the request is authenticated before, which reads no point.
-/

namespace Superviseur.UpdatePoint

open ReadCommitted

/-- The columns of `_UPDATABLE`. -/
structure Settings extends PointSettings where
  writeMin : Option PyFloat
  writeMax : Option PyFloat

/-- A row of `point`. -/
structure SettingsRow extends Settings where
  id : Uuid

/-- The columns an update writes. -/
structure SettingsChanges where
  path : Option (Option String)
  deadband : Option PyFloat
  maxIntervalS : Option ℤ
  pollIntervalS : Option (Option ℤ)
  writeMin : Option (Option PyFloat)
  writeMax : Option (Option PyFloat)

/-- A row of the audit log, as this request records it: the columns and the tags, before and
after. -/
structure SettingsAudit where
  userId : Uuid
  target : String
  before : SettingsChanges
  after : SettingsChanges
  tags : Option (List String × List String)

structure SettingsDb where
  points : List SettingsRow
  /-- `point_tag`. -/
  tags : List (Uuid × String)
  audits : List SettingsAudit

def SettingsDb.point? (s : SettingsDb) (id : Uuid) : Option SettingsRow :=
  s.points.find? fun row ↦ row.id = id

/-- The tags of a point. -/
def SettingsDb.tagsOf (s : SettingsDb) (id : Uuid) : List String :=
  (s.tags.filter fun row ↦ row.1 = id).map Prod.snd

/-! ## Changes -/

/-- What a column is written as: nothing where the field is absent, or has the value already. -/
def change {α : Type} (differs : α → α → Bool) (requested : Option α) (old : α) : Option α :=
  requested.filter (differs old)

/-- `!=`, of numbers. -/
def floatNe (x y : PyFloat) : Bool := x = .nan || y = .nan || x ≠ y

/-- `!=`, of numbers that may be null. -/
def boundNe : Option PyFloat → Option PyFloat → Bool
  | some x, some y => floatNe x y
  | x, y => x ≠ y

/-- The columns given replace those of the point. -/
def Settings.set (r : Settings) (changes : SettingsChanges) : Settings where
  path := changes.path.getD r.path
  deadband := changes.deadband.getD r.deadband
  maxIntervalS := changes.maxIntervalS.getD r.maxIntervalS
  pollIntervalS := changes.pollIntervalS.getD r.pollIntervalS
  writeMin := changes.writeMin.getD r.writeMin
  writeMax := changes.writeMax.getD r.writeMax

/-- `not after`, but for the tags. -/
def SettingsChanges.isEmpty (c : SettingsChanges) : Bool :=
  c.path.isNone && c.deadband.isNone && c.maxIntervalS.isNone && c.pollIntervalS.isNone &&
    c.writeMin.isNone && c.writeMax.isNone

/-- The columns of the point that are written. -/
def SettingsChanges.replaced (c : SettingsChanges) (r : Settings) : SettingsChanges where
  path := c.path.map fun _ ↦ r.path
  deadband := c.deadband.map fun _ ↦ r.deadband
  maxIntervalS := c.maxIntervalS.map fun _ ↦ r.maxIntervalS
  pollIntervalS := c.pollIntervalS.map fun _ ↦ r.pollIntervalS
  writeMin := c.writeMin.map fun _ ↦ r.writeMin
  writeMax := c.writeMax.map fun _ ↦ r.writeMax

/-- `json` has no infinity, and no NaN. -/
def SettingsChanges.isJson (c : SettingsChanges) : Bool :=
  c.deadband.all PyFloat.isFinite && c.writeMin.all (·.all PyFloat.isFinite) &&
    c.writeMax.all (·.all PyFloat.isFinite)

/-! ## The tables -/

inductive SettingsWrite where
  /-- `UPDATE point`, of the columns given. -/
  | update (id : Uuid) (changes : SettingsChanges)
  /-- `DELETE FROM point_tag`, of the rows that it finds. -/
  | deleteTags (id : Uuid) (tags : List String)
  | insertTag (id : Uuid) (tag : String)
  | audit (row : SettingsAudit)

namespace SettingsWrite

def apply : SettingsWrite → SettingsDb → SettingsDb
  | update id changes, s => { s with
      points := s.points.map fun row ↦
        if row.id = id then { row with toSettings := row.toSettings.set changes } else row }
  | deleteTags id tags, s => { s with
      tags := s.tags.filter fun row ↦ !(row.1 = id && row.2 ∈ tags) }
  | insertTag id tag, s => { s with tags := s.tags ++ [(id, tag)] }
  | audit row, s => { s with audits := s.audits ++ [row] }

/-- The same row, or the same key. -/
def conflicts : SettingsWrite → SettingsWrite → Bool
  | update id _, update id' _ => id = id'
  | deleteTags id tags, deleteTags id' tags' => id = id' && tags.any (· ∈ tags')
  | deleteTags id tags, insertTag id' tag => id = id' && tag ∈ tags
  | insertTag id tag, deleteTags id' tags => id = id' && tag ∈ tags
  | insertTag id tag, insertTag id' tag' => id = id' && tag = tag'
  | _, _ => false

/-- The row to update is there, the key of a tag is free; an entry of the audit log is in JSON, and
its target of at most 255 characters. -/
def allowed : SettingsWrite → SettingsDb → Bool
  | update id _, s => (s.point? id).isSome
  | deleteTags _ _, _ => true
  | insertTag id tag, s => (id, tag) ∉ s.tags
  | audit row, _ => row.before.isJson && row.after.isJson && row.target.length ≤ 255

theorem any_mem_comm (tags tags' : List String) :
    tags.any (· ∈ tags') = tags'.any (· ∈ tags) := by
  rw [Bool.eq_iff_iff, List.any_eq_true, List.any_eq_true]
  simp only [decide_eq_true_eq, and_comm]

theorem conflicts_comm (w w' : SettingsWrite) : conflicts w w' = conflicts w' w := by
  cases w <;> cases w' <;> simp only [conflicts, eq_comm, any_mem_comm]

end SettingsWrite

def settingsSchema : ReadCommitted.Schema SettingsDb SettingsWrite where
  apply := SettingsWrite.apply
  conflicts := SettingsWrite.conflicts
  conflicts_comm := SettingsWrite.conflicts_comm
  allowed := SettingsWrite.allowed

/-! ## Requests -/

/-- `PointUpdate`: the fields it has, which may be null. -/
structure SettingsUpdate where
  path : Option (Option String)
  deadband : Option (Option PyFloat)
  maxIntervalS : Option (Option ℤ)
  pollIntervalS : Option (Option ℤ)
  writeMin : Option (Option PyFloat)
  writeMax : Option (Option PyFloat)
  tags : Option (Option (List String))

/-- A body that changes nothing. -/
def SettingsUpdate.empty : SettingsUpdate := ⟨none, none, none, none, none, none, none⟩

/-- The bounds of the fields. -/
def SettingsUpdate.valid (u : SettingsUpdate) : Bool :=
  u.path.all (·.all (·.length ≤ 512)) &&
    u.deadband.all (·.all (PyFloat.fin 0).le) &&
    u.maxIntervalS.all (·.all fun n ↦ 1 ≤ n ∧ n ≤ 86400) &&
    u.pollIntervalS.all (·.all fun n ↦ 1 ≤ n ∧ n ≤ 86400) &&
    u.tags.all (·.all fun tags ↦ tags.length ≤ 32 &&
      tags.all fun tag ↦ 1 ≤ tag.length && tag.length ≤ 64)

/-- What a field of `_NOT_NULLABLE` that is null is refused with. -/
def SettingsUpdate.nullError (u : SettingsUpdate) : Option String :=
  if u.deadband = some none then some "deadband ne peut pas être vide"
  else if u.maxIntervalS = some none then some "max_interval_s ne peut pas être vide"
  else none

/-- `after`, but for the tags: the fields that differ from the point. -/
def SettingsUpdate.changes (u : SettingsUpdate) (r : Settings) : SettingsChanges where
  path := change (· ≠ ·) u.path r.path
  deadband := change floatNe u.deadband.join r.deadband
  maxIntervalS := change (· ≠ ·) u.maxIntervalS.join r.maxIntervalS
  pollIntervalS := change (· ≠ ·) u.pollIntervalS r.pollIntervalS
  writeMin := change boundNe u.writeMin r.writeMin
  writeMax := change boundNe u.writeMax r.writeMax

/-- `write_min > write_max`, where both are set. -/
def Settings.inverted (r : Settings) : Bool :=
  match r.writeMin, r.writeMax with
  | some min, some max => max.lt min
  | _, _ => false

inductive SettingsQuery where
  | point
  | tags
  /-- The rows that a deletion finds. -/
  | found

/-- The outcome of a request; a commit recalls the point as it was read and what is written over
it, and whether the collector is told. -/
inductive SettingsOutcome where
  | invalid
  | refused (code : ℕ) (detail : String)
  | unchanged
  | updated (loaded : SettingsRow) (changes : SettingsChanges) (publish : Bool)
  /-- An exception the handler does not catch. -/
  | failed

abbrev SettingsProg := ReadCommitted.Prog SettingsQuery SettingsDb SettingsWrite SettingsOutcome

/-- A request of `update_point`; `lower` is `str.lower`. -/
structure SettingsRequest where
  user : Uuid
  id : Uuid
  body : SettingsUpdate

/-- `tag.strip()`. -/
def stripped (tag : String) : List Char :=
  (tag.toList.dropWhile Unicode.isPySpace).rdropWhile Unicode.isPySpace

/-- `wanted`. -/
def wantedTags (lower : List Char → List Char) (tags : List String) : List String :=
  ((tags.filter fun tag ↦ stripped tag ≠ []).map fun tag ↦
    String.ofList (lower (stripped tag))).dedup.mergeSort fun a b ↦ decide (a ≤ b)

/-- The columns that have changed are written before the next statement. -/
def flush (id : Uuid) (changes : SettingsChanges) (k : SettingsProg) : SettingsProg :=
  if changes.isEmpty then k else .write (.update id changes) k .failed

/-- The new tags, one by one. -/
def insertTags (id : Uuid) (tags : List String) (k : SettingsProg) : SettingsProg :=
  tags.foldr (fun tag k ↦ .write (.insertTag id tag) k .failed) k

/-- The end of the request, where something has changed. -/
def record (q : SettingsRequest) (point : SettingsRow) (changes : SettingsChanges)
    (tags : Option (List String × List String)) : SettingsProg :=
  .write (.audit ⟨q.user, textOr (changes.path.getD point.path) (UuidText.write point.id),
      changes.replaced point.toSettings, changes, tags⟩)
    (.commit (.updated point changes
      (changes.deadband.isSome || changes.maxIntervalS.isSome || changes.pollIntervalS.isSome)))
    .failed

/-- `update_point`. -/
def SettingsRequest.program (lower : List Char → List Char) (q : SettingsRequest) : SettingsProg :=
  if !q.body.valid then .rollback .invalid
  else .read .point fun s ↦
    match s.point? q.id with
    | none => .rollback (.refused 404 "point introuvable")
    | some point =>
      match q.body.nullError with
      | some detail => .rollback (.refused 422 detail)
      | none =>
        let changes := q.body.changes point.toSettings
        if (point.toSettings.set changes).inverted then
          .rollback (.refused 422 "write_min ne peut pas dépasser write_max")
        else match q.body.tags.join with
          | none =>
            if changes.isEmpty then .rollback .unchanged
            else flush point.id changes (record q point changes none)
          | some tags => flush point.id changes <| .read .tags fun s ↦
            let wanted := wantedTags lower tags
            let current := (s.tagsOf q.id).mergeSort fun a b ↦ decide (a ≤ b)
            if wanted ≠ current then
              .read .found fun s ↦ .write (.deleteTags q.id (s.tagsOf q.id))
                (insertTags q.id wanted (record q point changes (some (current, wanted)))) .failed
            else if changes.isEmpty then .rollback .unchanged
            else record q point changes none

/-! ## Order -/

/-- The minimum is at most the maximum, where both are set. -/
def InOrder (min max : Option PyFloat) : Prop :=
  ∀ x ∈ min, ∀ y ∈ max, x.le y = true

/-- The bounds of the point are in order, as long as it is stored. -/
def SettingsDb.Ordered (id : Uuid) (s : SettingsDb) : Prop :=
  ∀ row ∈ s.points, row.id = id → InOrder row.writeMin row.writeMax

/-- A bound that is written without the other one is in order with the one of the point. -/
def Suits (changes : SettingsChanges) (r : Settings) : Prop :=
  match changes.writeMin, changes.writeMax with
  | some min, none => InOrder min r.writeMax
  | none, some max => InOrder r.writeMin max
  | some _, some _ | none, none => True

/-- The bound that goes with one written alone is still the one loaded, and not NaN, which nothing
is in order with. -/
def OtherAsRead (loaded : Settings) (changes : SettingsChanges) (r : Settings) : Prop :=
  match changes.writeMin, changes.writeMax with
  | some _, none => r.writeMax = loaded.writeMax ∧ r.writeMax ≠ some .nan
  | none, some _ => r.writeMin = loaded.writeMin ∧ r.writeMin ≠ some .nan
  | some _, some _ | none, none => True

instance (min max : Option PyFloat) : Decidable (InOrder min max) :=
  inferInstanceAs (Decidable (∀ x ∈ min, ∀ y ∈ max, _))

instance (loaded : Settings) (changes : SettingsChanges) (r : Settings) :
    Decidable (OtherAsRead loaded changes r) := by
  unfold OtherAsRead
  split <;> infer_instance

theorem ne_nan_of_isFinite {x : PyFloat} (h : x.isFinite = true) : x ≠ .nan := by
  rintro rfl
  exact Bool.false_ne_true h

theorem ne_nan_of_all_isFinite {x : Option PyFloat} (h : x.all PyFloat.isFinite = true) :
    x ≠ some .nan := by
  rintro rfl
  exact ne_nan_of_isFinite h rfl

theorem inOrder_of_not_inverted {r : Settings} (h : r.inverted = false)
    (hmin : r.writeMin ≠ some .nan) (hmax : r.writeMax ≠ some .nan) :
    InOrder r.writeMin r.writeMax := by
  intro x hx y hy
  rw [Option.mem_def] at hx hy
  rw [hx, ne_eq, Option.some_inj] at hmin
  rw [hy, ne_eq, Option.some_inj] at hmax
  rw [Settings.inverted, hx, hy] at h
  exact (PyFloat.not_lt_iff_le hmax hmin).mp h

/-- What was compared with the bound loaded suits the point stored, where that bound is the same. -/
theorem suits_of_otherAsRead {loaded r : Settings} {changes : SettingsChanges}
    (hchecked : (loaded.set changes).inverted = false) (hjson : changes.isJson = true)
    (hread : OtherAsRead loaded changes r) : Suits changes r := by
  have hset := inOrder_of_not_inverted hchecked
  rw [Settings.set] at hset
  rw [SettingsChanges.isJson, Bool.and_eq_true, Bool.and_eq_true] at hjson
  obtain ⟨⟨-, hjsonMin⟩, hjsonMax⟩ := hjson
  rw [OtherAsRead] at hread
  rw [Suits]
  rcases hmin : changes.writeMin with _ | min <;> rcases hmax : changes.writeMax with _ | max
  · trivial
  · rw [hmin, hmax] at hread hset
    rw [hmax] at hjsonMax
    obtain ⟨hloaded, hnan⟩ := hread
    dsimp only at hset ⊢
    rw [hloaded] at hnan ⊢
    exact hset hnan (ne_nan_of_all_isFinite hjsonMax)
  · rw [hmin, hmax] at hread hset
    rw [hmin] at hjsonMin
    obtain ⟨hloaded, hnan⟩ := hread
    dsimp only at hset ⊢
    rw [hloaded] at hnan ⊢
    exact hset (ne_nan_of_all_isFinite hjsonMin) hnan
  · trivial

/-- **What is written over bounds in order, once compared with those that were read, leaves them in
order if and only if a bound that is written alone is in order with the other one.** -/
theorem inOrder_set_iff {loaded r : Settings} {changes : SettingsChanges}
    (hchecked : (loaded.set changes).inverted = false) (hjson : changes.isJson = true)
    (hr : InOrder r.writeMin r.writeMax) :
    InOrder (r.set changes).writeMin (r.set changes).writeMax ↔ Suits changes r := by
  rw [Suits, Settings.set]
  rcases hmin : changes.writeMin with _ | min <;> rcases hmax : changes.writeMax with _ | max
  · exact iff_of_true hr trivial
  · rfl
  · rfl
  · -- both have been compared
    refine iff_of_true ?_ trivial
    have hset := inOrder_of_not_inverted hchecked
    rw [Settings.set, hmin, hmax] at hset
    rw [SettingsChanges.isJson, hmin, hmax, Bool.and_eq_true, Bool.and_eq_true] at hjson
    exact hset (ne_nan_of_all_isFinite hjson.1.2) (ne_nan_of_all_isFinite hjson.2)

/-! ## What is written -/

/-- The columns of points that are written. -/
def updates (ws : List SettingsWrite) : List (Uuid × SettingsChanges) :=
  ws.filterMap fun w ↦ match w with
    | .update id changes => some (id, changes)
    | .deleteTags _ _ | .insertTag _ _ | .audit _ => none

/-- The columns of one point. -/
def setPoint (points : List SettingsRow) (u : Uuid × SettingsChanges) : List SettingsRow :=
  points.map fun row ↦
    if row.id = u.1 then { row with toSettings := row.toSettings.set u.2 } else row

theorem points_run (ws : List SettingsWrite) (s : SettingsDb) :
    (settingsSchema.run ws s).points = (updates ws).foldl setPoint s.points := by
  induction ws generalizing s with
  | nil => rfl
  | cons w ws ih =>
    rw [Schema.run_cons, ih]
    rcases w with ⟨id, changes⟩ | ⟨id, tags⟩ | ⟨id, tag⟩ | row <;> rfl

/-- What a commit guarantees. -/
def KeepsOrdered (s : SettingsDb) (ws : List SettingsWrite) (_ : SettingsOutcome) : Prop :=
  ∀ id, s.Ordered id → (settingsSchema.run ws s).Ordered id

/-- Where a commit writes one bound, the other is still as it was read. -/
def otherAsRead : Conditions SettingsQuery SettingsDb SettingsOutcome where
  read _ _ := True
  commit
    | .updated loaded changes _, s =>
      ∀ row ∈ s.points, row.id = loaded.id → OtherAsRead loaded.toSettings changes row.toSettings
    | _, _ => True

/-- At most these columns of this point. -/
def Written (point : SettingsRow) (changes : SettingsChanges) (ws : List SettingsWrite) : Prop :=
  updates ws = [] ∨ updates ws = [(point.id, changes)]

section

variable {s : SettingsDb} {ws : List SettingsWrite} {point : SettingsRow}
  {changes : SettingsChanges} {r : SettingsOutcome} {k : SettingsProg}

theorem Written.append {w : SettingsWrite} (h : Written point changes ws)
    (hw : updates [w] = []) : Written point changes (ws ++ [w]) := by
  rw [Written, updates, List.filterMap_append]
  rw [updates] at hw
  rw [hw, List.append_nil]
  exact h

theorem keepsOrdered_of_written (hwritten : Written point changes ws)
    (hchecked : (point.toSettings.set changes).inverted = false) (hjson : changes.isJson = true)
    (hread : ∀ row ∈ s.points, row.id = point.id →
      OtherAsRead point.toSettings changes row.toSettings) :
    KeepsOrdered s ws r := by
  intro id hs row hrow hid
  rw [points_run] at hrow
  rcases hwritten with hnone | hone
  · rw [hnone] at hrow
    exact hs row hrow hid
  · rw [hone] at hrow
    obtain ⟨old, hold, rfl⟩ := List.mem_map.mp hrow
    by_cases hpoint : old.id = point.id
    · rw [if_pos hpoint] at hid ⊢
      have hsuits := suits_of_otherAsRead hchecked hjson (hread old hold hpoint)
      exact (inOrder_set_iff hchecked hjson (hs old hold hid)).mpr hsuits
    · rw [if_neg hpoint] at hid ⊢
      exact hs old hold hid

theorem valid_record {q : SettingsRequest} {tags : Option (List String × List String)}
    (hwritten : Written point changes ws)
    (hchecked : (point.toSettings.set changes).inverted = false) :
    Valid settingsSchema otherAsRead KeepsOrdered (record q point changes tags) ws s := by
  refine valid_write stable_true trivial fun t _ hallowed ↦ ?_
  -- what the audit log takes is finite
  have hjson : changes.isJson = true := by
    simp only [settingsSchema, SettingsWrite.allowed, Bool.and_eq_true] at hallowed
    exact hallowed.1.2
  exact valid_commit stable_true trivial fun t _ hread ↦
    keepsOrdered_of_written (hwritten.append rfl) hchecked hjson hread

theorem valid_insertTags {id : Uuid} {tags : List String} (hwritten : Written point changes ws)
    (hk : ∀ ws s, Written point changes ws → Valid settingsSchema otherAsRead KeepsOrdered k ws s) :
    Valid settingsSchema otherAsRead KeepsOrdered (insertTags id tags k) ws s := by
  induction tags generalizing ws s with
  | nil => exact hk ws s hwritten
  | cons tag tags ih =>
    exact valid_write stable_true trivial fun t _ _ ↦ ih (hwritten.append rfl)

theorem valid_flush
    (hk : ∀ ws s, Written point changes ws → Valid settingsSchema otherAsRead KeepsOrdered k ws s) :
    Valid settingsSchema otherAsRead KeepsOrdered (flush point.id changes k) [] s := by
  rw [flush]
  split
  · exact hk [] s (.inl rfl)
  · exact valid_write stable_true trivial fun t _ _ ↦ hk _ t (.inr rfl)

theorem valid_program (lower : List Char → List Char) (q : SettingsRequest) :
    Valid settingsSchema otherAsRead KeepsOrdered (q.program lower) [] s := by
  rw [SettingsRequest.program]
  split
  · trivial
  refine valid_read stable_true trivial fun t _ _ ↦ ?_
  split
  · trivial
  rename_i point _
  split
  · trivial
  dsimp only
  split
  · trivial
  rename_i hinverted
  have hchecked := Bool.eq_false_of_not_eq_true hinverted
  split
  · -- the tags are left as they are
    split
    · trivial
    · exact valid_flush fun ws s hwritten ↦ valid_record hwritten hchecked
  · refine valid_flush fun ws s hwritten ↦ ?_
    refine valid_read stable_true trivial fun t _ _ ↦ ?_
    split
    · refine valid_read stable_true trivial fun t _ _ ↦ ?_
      refine valid_write stable_true trivial fun t _ _ ↦ ?_
      exact valid_insertTags (hwritten.append rfl) fun ws s hwritten ↦
        valid_record hwritten hchecked
    · split
      · trivial
      · exact valid_record hwritten hchecked

end

/-! ## Runs -/

/-- **Bounds that are in order stay so**, in every run in which a request that writes one bound is
committed while the other is still as it was read. -/
theorem bounds_ordered {ι : Type} [DecidableEq ι] (lower : List Char → List Char) (id : Uuid)
    {s : SettingsDb} {y : System ι _ _ _ _} {ls : List (Label ι SettingsRequest)}
    (hs : s.Ordered id) (hrun : System.Run settingsSchema (SettingsRequest.program lower)
      otherAsRead (System.idle s) ls y) : y.db.Ordered id :=
  System.Run.invariant (G := KeepsOrdered) (fun t _ ↦ t.Ordered id)
    (fun q _ _ _ ↦ valid_program lower q) (fun _ _ _ _ ht hkeeps ↦ hkeeps id ht) hs hrun

instance (query : SettingsQuery) (s : SettingsDb) : Decidable (otherAsRead.read query s) :=
  .isTrue trivial

instance (r : SettingsOutcome) (s : SettingsDb) : Decidable (otherAsRead.commit r s) :=
  match r with
  | .updated _ _ _ => inferInstanceAs (Decidable (∀ row ∈ s.points, _ → _))
  | .invalid | .refused _ _ | .unchanged | .failed => .isTrue trivial

/-! ## Two requests -/

/-- A set point between 10 and 30. -/
def consigne : SettingsRow where
  id := 1
  path := some "Site/Consigne"
  deadband := .fin 0
  maxIntervalS := 900
  pollIntervalS := none
  writeMin := some (.fin 10)
  writeMax := some (.fin 30)

def onePoint : SettingsDb := ⟨[consigne], [], []⟩

theorem ordered_onePoint : onePoint.Ordered 1 := by
  intro row hrow _
  obtain rfl := List.mem_singleton.mp hrow
  decide

def lowerMax : SettingsRequest :=
  ⟨1, 1, { SettingsUpdate.empty with writeMax := some (some (.fin 15)) }⟩

def raiseMin : SettingsRequest :=
  ⟨2, 1, { SettingsUpdate.empty with writeMin := some (some (.fin 20)) }⟩

/-- The maximum is lowered first; the minimum can then not be raised so much. -/
def oneByOne : List (Label ℕ SettingsRequest) :=
  [.start 1 lowerMax] ++ List.replicate 4 (.advance 1) ++
    [.start 2 raiseMin] ++ List.replicate 2 (.advance 2)

theorem bounds_ordered_oneByOne : ∃ y, System.Run settingsSchema (SettingsRequest.program id)
    otherAsRead (System.idle onePoint) oneByOne y ∧
      y.db.points.map (fun row ↦ (row.writeMin, row.writeMax)) =
        [(some (.fin 10), some (.fin 15))] ∧ y.db.Ordered 1 := by
  have hpoints : ((Trace.exec (fun x l ↦ if System.Meets settingsSchema otherAsRead x l then
      System.next settingsSchema (SettingsRequest.program id) x l else none)
      (System.idle onePoint) oneByOne).map fun y ↦
        y.db.points.map fun row ↦ (row.writeMin, row.writeMax)) =
          some [(some (.fin 10), some (.fin 15))] := by
    decide
  obtain ⟨y, hy, hpoints⟩ := Option.map_eq_some_iff.mp hpoints
  have hrun : System.Run settingsSchema (SettingsRequest.program id) otherAsRead
      (System.idle onePoint) oneByOne y := .of_exec_checked hy
  exact ⟨y, hrun, hpoints, bounds_ordered id 1 ordered_onePoint hrun⟩

/-- Both have read the point before either is committed. -/
def interleaved : List (Label ℕ SettingsRequest) :=
  [.start 1 lowerMax, .start 2 raiseMin, .advance 1, .advance 2] ++
    List.replicate 3 (.advance 1) ++ List.replicate 3 (.advance 2)

/-- **Both are committed, and leave a minimum of 20 above a maximum of 15.** -/
theorem not_ordered : ¬∀ (s : SettingsDb) (id' : Uuid) (ls : List (Label ℕ SettingsRequest))
    (y : System ℕ SettingsQuery SettingsDb SettingsWrite SettingsOutcome), s.Ordered id' →
      System.Run settingsSchema (SettingsRequest.program id) .none (System.idle s) ls y →
        y.db.Ordered id' := by
  intro hall
  have hpoints : ((Trace.exec (System.next settingsSchema (SettingsRequest.program id))
      (System.idle onePoint) interleaved).map fun y ↦ y.db.points.map fun row ↦
        (row.id, row.writeMin, row.writeMax)) =
          some [(1, some (.fin 20), some (.fin 15))] := by
    decide
  obtain ⟨y, hy, hpoints⟩ := Option.map_eq_some_iff.mp hpoints
  obtain ⟨row, hrow, heq⟩ : ∃ row ∈ y.db.points, (row.id, row.writeMin, row.writeMax) =
      (1, some (PyFloat.fin 20), some (PyFloat.fin 15)) :=
    List.mem_map.mp (hpoints ▸ List.mem_singleton_self _)
  obtain ⟨hid, hbounds⟩ := Prod.mk.inj heq
  obtain ⟨hmin, hmax⟩ := Prod.mk.inj hbounds
  have hordered := hall _ _ _ y ordered_onePoint
    (.of_exec (fun l _ x ↦ System.meets_none _ x l) hy) row hrow hid
  rw [hmin, hmax] at hordered
  exact absurd hordered (by decide)

end Superviseur.UpdatePoint
