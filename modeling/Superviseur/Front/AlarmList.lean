import Superviseur.Alarms.Messages
import Superviseur.Library.Comparators
import Mathlib.Algebra.Order.Floor.Ring

/-!
# The list of alarms

`applyAlarm` puts the alarm of an event in the list of the widget, or takes it out. It reads a few
members of an alarm, whatever the others are, and leaves dates and identifiers to `Date.parse` and
`localeCompare`: all this is `Members`, and the functions are the same for any alarms that have
them.

The event is a JSON object whose members are taken to be those of an alarm: a member that the
message lacks is `none` here, and counts as `undefined` does there: no rank for a severity, no date
for `raised_at`, an empty path. The numbers of `compareAlarms` are then `NaN`, `none` here. Where no
severity and no date is missing, **the comparison reflects a lexicographic key**
(`Members.reflects`).
-/

namespace Superviseur

namespace AlarmList

/-! ## Filters -/

inductive StateFilter where
  | «open»
  | active
  | unacked
  | closed
  | all
  deriving DecidableEq

/-- `STATE_GROUPS`. -/
def stateGroups : StateFilter → List AlarmState
  | .open => [.activeUnacked, .activeAcked, .clearedUnacked]
  | .active => [.activeUnacked, .activeAcked]
  | .unacked => [.activeUnacked, .clearedUnacked]
  | .closed => [.normal]
  | .all => [.activeUnacked, .activeAcked, .clearedUnacked, .normal]

structure AlarmFilter where
  path : Option String
  states : StateFilter

/-- `filter.path && !(alarm.path ?? '').startsWith(filter.path)` lets the alarm through: an empty
path filters nothing. -/
def inPath (path : Option String) (filter : AlarmFilter) : Bool :=
  match filter.path with
  | none => true
  | some p => p.toList.isEmpty || p.toList.isPrefixOf (path.getD "").toList

/-! ## The functions -/

/-- `SEVERITY_RANK`. -/
def severityRank : Severity → ℤ
  | .critical => 3
  | .warning => 2
  | .info => 1

/-- The difference of two numbers of the comparison, `none` for `NaN`. -/
def difference (x y : Option ℤ) : Option ℤ :=
  match x, y with
  | some x, some y => some (x - y)
  | _, _ => none

/-- The members of an alarm that the functions read, and what they call. -/
structure Members (Alarm Id : Type*) where
  id : Alarm → Id
  state : Alarm → AlarmState
  severity : Alarm → Option Severity
  path : Alarm → Option String
  /-- `Date.parse(alarm.raised_at)`, `none` for `NaN`. -/
  date : Alarm → Option ℤ
  localeCompare : Id → Id → ℤ

namespace Members

variable {Alarm Id : Type*} (m : Members Alarm Id)

def needsAck (alarm : Alarm) : Bool :=
  decide (m.state alarm = .activeUnacked ∨ m.state alarm = .clearedUnacked)

def «matches» (alarm : Alarm) (filter : AlarmFilter) : Bool :=
  decide (m.state alarm ∈ stateGroups filter.states) && inPath (m.path alarm) filter

/-- `compareAlarms`: what waits for an acknowledgement, then the worst, then the latest. -/
def compareAlarms (a b : Alarm) : Option ℤ :=
  let ack : ℤ := (m.needsAck b).toInt - (m.needsAck a).toInt
  if ack ≠ 0 then some ack
  else
    let severity := difference ((m.severity b).map severityRank) ((m.severity a).map severityRank)
    if severity ≠ some 0 then severity
    else
      match difference (m.date b) (m.date a) with
      | some date => if date ≠ 0 then some date else some (m.localeCompare (m.id a) (m.id b))
      -- `NaN || …`
      | none => some (m.localeCompare (m.id a) (m.id b))

/-- The number that `Array.prototype.sort` takes: it counts `NaN` as equal. -/
def number (a b : Alarm) : ℤ := (m.compareAlarms a b).getD 0

/-- `sortAlarms`. The sort is stable; any two stable sorts agree where the comparison is
consistent. -/
def sortAlarms (alarms : List Alarm) : List Alarm := alarms.insertionSort fun a b ↦ m.number a b ≤ 0

/-- `applyAlarm`. -/
def applyAlarm [DecidableEq Id] (list : List Alarm) (alarm : Alarm) (filter : AlarmFilter)
    (maxRows : ℕ) : List Alarm :=
  let others := list.filter fun a ↦ m.id a ≠ m.id alarm
  if m.«matches» alarm filter then (m.sortAlarms (others ++ [alarm])).take maxRows
  else (m.sortAlarms others).take maxRows

/-! ## The order -/

/-- The severity is there, and `raised_at` is a date. -/
structure Valid (alarm : Alarm) : Prop where
  severity : (m.severity alarm).isSome = true
  date : (m.date alarm).isSome = true

/-- `compareAlarms` is a strict total order on the alarms of the list, those of one identifier
apart. -/
structure StrictTotalOn (list : List Alarm) : Prop where
  swap : ∀ a ∈ list, ∀ b ∈ list, m.number a b < 0 ↔ 0 < m.number b a
  trans : ∀ a ∈ list, ∀ b ∈ list, ∀ c ∈ list,
    m.number a b < 0 → m.number b c < 0 → m.number a c < 0
  self : ∀ a ∈ list, m.number a a = 0
  id_of_zero : ∀ a ∈ list, ∀ b ∈ list, m.number a b = 0 → m.id a = m.id b

/-- The rank of a valid alarm. -/
def rankOf (alarm : Alarm) : ℤ := ((m.severity alarm).map severityRank).getD 0

/-- Its date. -/
def dateOf (alarm : Alarm) : ℤ := (m.date alarm).getD 0

/-- What `compareAlarms` compares: the greatest numbers first, then the identifiers. -/
def rowKey (alarm : Alarm) : ℤ ×ₗ ℤ ×ₗ ℤ ×ₗ Id :=
  toLex (-(m.needsAck alarm).toInt, toLex (-m.rankOf alarm, toLex (-m.dateOf alarm, m.id alarm)))

variable {m} {a b : Alarm} {list : List Alarm}

theorem id_of_rowKey (h : m.rowKey a = m.rowKey b) : m.id a = m.id b := by
  simp only [rowKey, toLex_inj, Prod.mk.injEq] at h
  exact h.2.2.2

theorem nodup_rowKey (h : (list.map m.id).Nodup) : (list.map m.rowKey).Nodup :=
  List.pairwise_map.mpr ((List.pairwise_map.mp h).imp fun hne hkey ↦ hne (id_of_rowKey hkey))

theorem compareAlarms_of_valid (ha : m.Valid a) (hb : m.Valid b) :
    m.compareAlarms a b = some (Comparators.orElse ((m.needsAck b).toInt - (m.needsAck a).toInt)
      (Comparators.orElse (m.rankOf b - m.rankOf a)
        (Comparators.orElse (m.dateOf b - m.dateOf a) (m.localeCompare (m.id a) (m.id b))))) := by
  obtain ⟨sa, hsa⟩ := Option.isSome_iff_exists.mp ha.severity
  obtain ⟨sb, hsb⟩ := Option.isSome_iff_exists.mp hb.severity
  obtain ⟨ta, hta⟩ := Option.isSome_iff_exists.mp ha.date
  obtain ⟨tb, htb⟩ := Option.isSome_iff_exists.mp hb.date
  simp only [compareAlarms, rankOf, dateOf, hsa, hsb, hta, htb, Option.map_some, difference,
    Option.getD_some, Comparators.orElse]
  split
  · rfl
  · simp only [ne_eq, Option.some.injEq]
    split
    · rfl
    · split <;> rfl

/-- **The comparison of valid alarms is that of a lexicographic key.** -/
theorem reflects [LinearOrder Id]
    (hlocale : Comparators.Reflects (fun _ ↦ True) (fun id ↦ id) m.localeCompare) :
    Comparators.Reflects m.Valid m.rowKey m.number := by
  have hids : Comparators.Reflects m.Valid m.id fun a b ↦ m.localeCompare (m.id a) (m.id b) :=
    hlocale.comap m.id fun _ _ ↦ trivial
  -- the criteria, from the last to the first
  have hdate := (Comparators.Reflects.sub m.Valid m.dateOf).orElse hids
  have hrank := (Comparators.Reflects.sub m.Valid m.rankOf).orElse hdate
  have hack := (Comparators.Reflects.sub m.Valid fun a ↦ (m.needsAck a).toInt).orElse hrank
  refine hack.congr fun ha hb ↦ ?_
  rw [number, compareAlarms_of_valid ha hb, Option.getD_some]

theorem strictTotalOn [LinearOrder Id]
    (hlocale : Comparators.Reflects (fun _ ↦ True) (fun id ↦ id) m.localeCompare)
    (h : ∀ a ∈ list, m.Valid a) : m.StrictTotalOn list := by
  have hkey : Comparators.Reflects m.Valid m.rowKey m.number := reflects hlocale
  refine ⟨?_, ?_, ?_, ?_⟩
  · intro a ha b hb
    exact hkey.swap (h a ha) (h b hb)
  · intro a ha b hb c hc hab hbc
    exact hkey.trans (h a ha) (h b hb) (h c hc) hab hbc
  · intro a ha
    exact (hkey.zero_iff (h a ha) (h a ha)).mpr rfl
  · intro a ha b hb hzero
    exact id_of_rowKey ((hkey.zero_iff (h a ha) (h b hb)).mp hzero)

end Members

end AlarmList

/-! ## The alarms of the widget -/

/-- The members of an `Alarm` the list compares, filters and shows. -/
structure ListedAlarm where
  id : Uuid
  state : AlarmState
  severity : Option Severity
  kind : Option AlarmKind
  pointName : Option String
  path : Option String
  raisedAt : Option Instant
  deriving DecidableEq

/-- The `event` member of a message, as JSON gives it to the list. -/
def AlarmPayload.listed : AlarmPayload → ListedAlarm
  | .full info => {
      id := info.eventId
      state := info.state
      severity := some info.severity
      kind := some info.kind
      pointName := some info.pointName
      path := info.path
      raisedAt := some info.raisedAt }
  | .orphan id state => {
      id := id
      state := state
      severity := none
      kind := none
      pointName := none
      path := none
      raisedAt := none }

/-- The alarm has every member the list renders and compares. -/
structure ListedAlarm.Complete (a : ListedAlarm) : Prop where
  severity : a.severity.isSome = true
  raisedAt : a.raisedAt.isSome = true
  kind : a.kind.isSome = true
  pointName : a.pointName.isSome = true

namespace AlarmList

/-- `Date.parse`: milliseconds, the digits that follow them dropped. -/
def dateParse (instant : Instant) : ℤ := ⌊instant * 1000⌋

/-- `localeCompare` on the texts of two identifiers. These have one form, in which the order of the
texts is that of the numbers. -/
def localeCompare (a b : Uuid) : ℤ := if a < b then -1 else if a = b then 0 else 1

/-- The alarms of the list. -/
@[reducible] def members : Members ListedAlarm Uuid where
  id := ListedAlarm.id
  state := ListedAlarm.state
  severity := ListedAlarm.severity
  path := ListedAlarm.path
  date alarm := alarm.raisedAt.map dateParse
  localeCompare := localeCompare

def «matches» (alarm : ListedAlarm) (filter : AlarmFilter) : Bool := members.«matches» alarm filter

/-- `sortAlarms`. -/
def sortAlarms (alarms : List ListedAlarm) : List ListedAlarm := members.sortAlarms alarms

/-- `applyAlarm`. -/
def applyAlarm (filter : AlarmFilter) (maxRows : ℕ) (list : List ListedAlarm)
    (alarm : ListedAlarm) : List ListedAlarm := members.applyAlarm list alarm filter maxRows

/-- `compareAlarms(a, b) < 0`. -/
def Before (a b : ListedAlarm) : Prop := members.number a b < 0

section Order

variable {a b : ListedAlarm} {list : List ListedAlarm}

theorem reflects_localeCompare : Comparators.Reflects (fun _ ↦ True) id localeCompare where
  neg_iff {a b} _ _ := by
    rw [localeCompare]
    split
    · simpa using ‹a < b›
    · split <;> simp [*]
  zero_iff {a b} _ _ := by
    rw [localeCompare]
    split
    · simpa using (‹a < b›).ne
    · split <;> simp [*]

theorem valid_of_complete (h : a.Complete) : members.Valid a :=
  ⟨h.severity, Option.isSome_map.trans h.raisedAt⟩

theorem strictTotalOn_of_complete (h : ∀ a ∈ list, a.Complete) : members.StrictTotalOn list :=
  Members.strictTotalOn reflects_localeCompare fun a ha ↦ valid_of_complete (h a ha)

end Order

/-! ## What an event leaves in the list -/

section Apply

variable {filter : AlarmFilter} {maxRows : ℕ} {list : List ListedAlarm} {alarm : ListedAlarm}

theorem sortAlarms_perm (list : List ListedAlarm) : (sortAlarms list).Perm list :=
  List.perm_insertionSort (fun a b ↦ members.number a b ≤ 0) list

theorem applyAlarm_cases (filter : AlarmFilter) (maxRows : ℕ) (list : List ListedAlarm)
    (alarm : ListedAlarm) : applyAlarm filter maxRows list alarm =
      if «matches» alarm filter then
        (sortAlarms ((list.filter fun a ↦ a.id ≠ alarm.id) ++ [alarm])).take maxRows
      else (sortAlarms (list.filter fun a ↦ a.id ≠ alarm.id)).take maxRows := rfl

/-- The list holds what it held, and the alarm of the event where the filter lets it through. -/
theorem mem_applyAlarm {a : ListedAlarm} (h : a ∈ applyAlarm filter maxRows list alarm) :
    a ∈ list ∨ a = alarm ∧ «matches» alarm filter = true := by
  rw [applyAlarm_cases] at h
  split at h
  · rename_i hmatches
    rcases List.mem_append.mp ((sortAlarms_perm _).mem_iff.mp (List.mem_of_mem_take h)) with h | h
    · exact .inl (List.mem_of_mem_filter h)
    · exact .inr ⟨List.mem_singleton.mp h, hmatches⟩
  · exact .inl (List.mem_of_mem_filter ((sortAlarms_perm _).mem_iff.mp (List.mem_of_mem_take h)))

theorem nodup_applyAlarm (h : (list.map ListedAlarm.id).Nodup) :
    ((applyAlarm filter maxRows list alarm).map ListedAlarm.id).Nodup := by
  have hothers : ((list.filter fun a ↦ a.id ≠ alarm.id).map ListedAlarm.id).Nodup :=
    h.sublist (List.filter_sublist.map _)
  have htake : ∀ l : List ListedAlarm, (l.map ListedAlarm.id).Nodup →
      (((sortAlarms l).take maxRows).map ListedAlarm.id).Nodup := fun l hl ↦
    ((((sortAlarms_perm l).map _).nodup_iff).mpr hl).sublist ((List.take_sublist _ _).map _)
  rw [applyAlarm_cases]
  split
  · refine htake _ ?_
    rw [List.map_append, List.nodup_append]
    refine ⟨hothers, List.nodup_singleton _, ?_⟩
    intro id hid id' hid'
    obtain ⟨a, ha, rfl⟩ := List.mem_map.mp hid
    rw [List.map_singleton, List.mem_singleton] at hid'
    rw [hid']
    simpa using (List.mem_filter.mp ha).2
  · exact htake _ hothers

/-- Where there is room, an alarm the filter lets through is in the list. -/
theorem mem_applyAlarm_self (hmatches : «matches» alarm filter = true)
    (hroom : list.length < maxRows) : alarm ∈ applyAlarm filter maxRows list alarm := by
  have hlength : (sortAlarms ((list.filter fun a ↦ a.id ≠ alarm.id) ++ [alarm])).length
      ≤ maxRows := by
    rw [(sortAlarms_perm _).length_eq, List.length_append, List.length_singleton]
    have := List.length_filter_le (fun a ↦ decide (a.id ≠ alarm.id)) list
    omega
  rw [applyAlarm_cases, if_pos hmatches, List.take_of_length_le hlength,
    (sortAlarms_perm _).mem_iff]
  exact List.mem_append_right _ (List.mem_singleton_self alarm)

theorem length_applyAlarm_le (filter : AlarmFilter) (maxRows : ℕ) (list : List ListedAlarm)
    (alarm : ListedAlarm) : (applyAlarm filter maxRows list alarm).length ≤ list.length + 1 := by
  have hfilter := List.length_filter_le (fun a ↦ decide (a.id ≠ alarm.id)) list
  rw [applyAlarm_cases]
  split
  · refine (List.length_take_le' _ _).trans ?_
    rw [(sortAlarms_perm _).length_eq, List.length_append, List.length_singleton]
    omega
  · refine (List.length_take_le' _ _).trans ?_
    rw [(sortAlarms_perm _).length_eq]
    omega

end Apply

end AlarmList

end Superviseur
