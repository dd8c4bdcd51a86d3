import Superviseur.Front.AlarmWidget
import Superviseur.Library.Leading
import Superviseur.Library.Trace

/-!
# The list shows the first rows

Events and refreshes follow one another, each alone. The list is the first `maxRows` alarms of the
database, in the order of `compareAlarms`, among those that match the filter, as long as no row is
missed: `showsTop_iff`.

A page misses a row that it leaves out, when it is older than those of the page but ranks before
one of them. An event misses one when an alarm of the list leaves, or goes down, while others are
cut: the widget does not have the row that comes up.
-/

namespace Superviseur

namespace AlarmList

/-! ## Rows by rank -/

variable {a b : ListedAlarm} {list : List ListedAlarm}

theorem before_iff_rowKey (ha : a.Complete) (hb : b.Complete) :
    Before a b ↔ members.rowKey a < members.rowKey b :=
  (Members.reflects reflects_localeCompare).neg_iff (valid_of_complete ha) (valid_of_complete hb)

theorem sortAlarms_eq_sorted (h : ∀ a ∈ list, a.Complete) :
    sortAlarms list = Leading.sorted members.rowKey list :=
  (Members.reflects reflects_localeCompare).insertionSort_eq fun a ha ↦ valid_of_complete (h a ha)

theorem nodup_rowKey (h : (list.map ListedAlarm.id).Nodup) : (list.map members.rowKey).Nodup :=
  Members.nodup_rowKey (m := members) h

/-! ## A refresh alone -/

namespace AlarmListWidget

variable {config : AlarmListConfig} {w : AlarmListWidget}

theorem refreshed_ok (hlive : w.destroyed = false) (items : List ListedAlarm) :
    w.refresh.refreshed config w.refresh.loadSeq (.ok items) = { w.refresh with
      alarms := (sortAlarms items).take config.maxRows
      messages := { w.messages with load := "" }
      loaded := true } := by
  rw [refreshed, if_neg (by simp [refresh, hlive])]
  rfl

theorem refreshed_error (hlive : w.destroyed = false) (text : String) :
    w.refresh.refreshed config w.refresh.loadSeq (.error text) = { w.refresh with
      messages := { w.messages with load := "Alarmes indisponibles : " ++ text }
      loaded := true } := by
  rw [refreshed, if_neg (by simp [refresh, hlive])]
  rfl

end AlarmListWidget

/-! ## The list and the database -/

/-- The database, and the widget. -/
structure AlarmView where
  table : AlarmTable
  widget : AlarmListWidget

/-- One thing happens at a time. -/
inductive ViewLabel
  /-- An alarm is raised or passes to another state, and its event is applied. -/
  | stored (alarm : Alarm)
  /-- A refresh is asked for, and answered. -/
  | refreshed
  /-- A refresh is asked for, and fails. -/
  | failed (text : String)

namespace AlarmView

/-- `refresh`, answered at once. -/
def refresh (config : AlarmListConfig) (view : AlarmView)
    (answer : Except String (List ListedAlarm)) : AlarmView :=
  let widget := view.widget.refresh
  { view with widget := widget.refreshed config widget.loadSeq answer }

def step (config : AlarmListConfig) (view : AlarmView) : ViewLabel → AlarmView
  | .stored alarm => ⟨view.table.store alarm, view.widget.applyEvent config alarm.1⟩
  | .refreshed =>
    view.refresh config (.ok (listAlarms view.table config.states config.path config.maxRows))
  | .failed text => view.refresh config (.error text)

/-- The first rows of the alarms that match the filter. -/
def top (config : AlarmListConfig) (view : AlarmView) : List ListedAlarm :=
  (sortAlarms (matching config view.table)).take config.maxRows

/-- **The widget shows the first rows.** -/
def ShowsTop (config : AlarmListConfig) (view : AlarmView) : Prop :=
  view.widget.loaded = true ∧ view.widget.alarms = view.top config

/-- No row is missed by what happens. -/
def MissesNone (config : AlarmListConfig) (view : AlarmView) : ViewLabel → Prop
  -- an alarm that is shown, while others are cut, stays before the first of these
  | .stored alarm => ∀ cut,
      (sortAlarms (matching config view.table))[config.maxRows]? = some cut →
        (∃ a ∈ view.top config, a.id = alarm.1.id) →
          «matches» alarm.1 config.filter = true ∧ Before alarm.1 cut
  -- an alarm that the page leaves out ranks after those of the page
  | .refreshed =>
      let page := listAlarms view.table config.states config.path config.maxRows
      ∀ a ∈ page, ∀ b ∈ matching config view.table, b ∉ page → Before a b
  | .failed _ => True

/-! ## One step -/

section Step

variable {config : AlarmListConfig} {view : AlarmView} {alarm : Alarm}

theorem top_eq_first (config : AlarmListConfig) (view : AlarmView) :
    view.top config = Leading.first members.rowKey config.maxRows (matching config view.table) := by
  rw [top, sortAlarms_eq_sorted (complete_matching config view.table), Leading.first]

/-- **An event keeps the first rows** if and only if it misses none. -/
theorem showsTop_stored_iff (hlive : view.widget.destroyed = false)
    (h : view.ShowsTop config) (alarm : Alarm) :
    (view.step config (.stored alarm)).ShowsTop config ↔
      view.MissesNone config (.stored alarm) := by
  obtain ⟨hloaded, halarms⟩ := h
  have hnodup := nodup_rowKey (nodup_matching config view.table)
  have hcomplete := complete_matching config view.table
  have hwidget : (view.widget.applyEvent config alarm.1) = { view.widget with
      alarms := applyAlarm config.filter config.maxRows view.widget.alarms alarm.1 } := by
    rw [AlarmListWidget.applyEvent, if_neg]
    simp [hlive, hloaded]
  have hin : ∀ x ∈ incoming config alarm.1,
      x = alarm.1 ∧ «matches» alarm.1 config.filter = true := by
    intro x hx
    rw [incoming] at hx
    split at hx
    · exact ⟨(Option.some.inj hx).symm, ‹_›⟩
    · cases hx
  -- both sides are first rows of complete alarms
  have hnew : ∀ x ∈ (incoming config alarm.1).toList, x.Complete := by
    intro x hx
    rw [(hin x (Option.mem_toList.mp hx)).1]
    exact alarm.2
  rw [ShowsTop, step, hwidget, top_eq_first, applyAlarm_eq, halarms, top_eq_first, matching_store,
    sortAlarms_eq_sorted]
  swap
  · intro a ha
    rcases List.mem_append.mp ha with ha | ha
    · exact hcomplete a (Leading.mem_of_mem_first (List.mem_of_mem_filter ha))
    · exact hnew a ha
  have hone : ∀ a ∈ matching config view.table, ∀ b ∈ matching config view.table,
      decide (a.id ≠ alarm.1.id) = false → decide (b.id ≠ alarm.1.id) = false → a = b := by
    intro a ha b hb hpa hpb
    have hid : a.id = b.id := by
      rw [decide_eq_false_iff_not, not_not] at hpa hpb
      rw [hpa, hpb]
    exact List.inj_on_of_nodup_map (nodup_matching config view.table) ha hb hid
  have hother : ∀ x ∈ incoming config alarm.1, ∀ a ∈ matching config view.table,
      decide (a.id ≠ alarm.1.id) = true → members.rowKey a ≠ members.rowKey x := by
    intro x hx a _ hpa hkey
    rw [(hin x hx).1] at hkey
    exact of_decide_eq_true hpa (Members.id_of_rowKey hkey)
  have hupdate := Leading.first_update_iff hnodup hone (incoming config alarm.1) hother
    config.maxRows
  rw [MissesNone, top_eq_first, sortAlarms_eq_sorted hcomplete]
  have hshown : (∃ a ∈ Leading.first members.rowKey config.maxRows (matching config view.table),
      decide (a.id ≠ alarm.1.id) = false) ↔
      ∃ a ∈ Leading.first members.rowKey config.maxRows (matching config view.table),
        a.id = alarm.1.id := by
    simp
  have hbefore : ∀ cut,
      (Leading.sorted members.rowKey (matching config view.table))[config.maxRows]? = some cut →
      ((∃ x ∈ incoming config alarm.1, members.rowKey x < members.rowKey cut) ↔
        «matches» alarm.1 config.filter = true ∧ Before alarm.1 cut) := by
    intro cut hcut
    have hmem : cut ∈ matching config view.table :=
      Leading.mem_sorted.mp (List.mem_of_getElem? hcut)
    rw [before_iff_rowKey alarm.2 (hcomplete cut hmem)]
    constructor
    · rintro ⟨x, hx, hlt⟩
      obtain ⟨rfl, hmatches⟩ := hin x hx
      exact ⟨hmatches, hlt⟩
    · rintro ⟨hmatches, hlt⟩
      exact ⟨alarm.1, if_pos hmatches, hlt⟩
  rw [hshown] at hupdate
  constructor
  · rintro ⟨-, heq⟩ cut hcut hgone
    exact (hbefore cut hcut).mp (hupdate.mp heq cut hcut hgone)
  · intro hnone
    refine ⟨hloaded, hupdate.mpr fun cut hcut hgone ↦ ?_⟩
    exact (hbefore cut hcut).mpr (hnone cut hcut hgone)

theorem length_listAlarms (config : AlarmListConfig) (table : AlarmTable) :
    (listAlarms table config.states config.path config.maxRows).length =
      min config.maxRows (matching config table).length := by
  rw [listAlarms_eq, List.length_take, List.length_insertionSort]

/-- **A page gives the first rows** if and only if it misses none. -/
theorem showsTop_refreshed_iff (hlive : view.widget.destroyed = false) :
    (view.step config .refreshed).ShowsTop config ↔ view.MissesNone config .refreshed := by
  have hcomplete := complete_matching config view.table
  have hids := nodup_matching config view.table
  have hsorted := List.perm_insertionSort (fun a b ↦ serverKey a ≤ serverKey b)
    (matching config view.table)
  rw [MissesNone, step, refresh]
  have hlength := length_listAlarms config view.table
  rw [listAlarms_eq] at hlength ⊢
  generalize hrows : (matching config view.table).insertionSort
    (fun a b ↦ serverKey a ≤ serverKey b) = rows at hsorted hlength ⊢
  -- the page, and what it leaves out
  have hperm : (rows.take config.maxRows ++ rows.drop config.maxRows).Perm
      (matching config view.table) := by rwa [List.take_append_drop]
  have hpage : ∀ a ∈ rows.take config.maxRows, a ∈ matching config view.table := fun a ha ↦
    hperm.mem_iff.mp (List.mem_append_left _ ha)
  have hout : ∀ b, b ∈ rows.drop config.maxRows ↔
      b ∈ matching config view.table ∧ b ∉ rows.take config.maxRows := by
    intro b
    have hnodup : (rows.take config.maxRows ++ rows.drop config.maxRows).Nodup :=
      (hperm.nodup_iff).mpr (List.Nodup.of_map _ hids)
    rw [← hperm.mem_iff, List.mem_append]
    have hdisjoint := (List.nodup_append.mp hnodup).2.2
    constructor
    · exact fun hb ↦ ⟨.inr hb, fun hb' ↦ hdisjoint b hb' b hb rfl⟩
    · exact fun ⟨hb, hb'⟩ ↦ hb.resolve_left hb'
  have hkeys := Leading.sorted_eq_first_iff (nodup_rowKey hids) hperm hlength
  have hlist : (sortAlarms (rows.take config.maxRows)).take config.maxRows =
      Leading.sorted members.rowKey (rows.take config.maxRows) := by
    rw [sortAlarms_eq_sorted fun a ha ↦ hcomplete a (hpage a ha)]
    refine List.take_of_length_le ?_
    rw [(Leading.sorted_perm members.rowKey _).length_eq, hlength]
    exact min_le_left _ _
  rw [ShowsTop, top_eq_first]
  simp only [AlarmListWidget.refreshed_ok hlive, hlist, true_and, hkeys]
  constructor
  · intro h a ha b hb hcut
    exact (before_iff_rowKey (hcomplete a (hpage a ha)) (hcomplete b hb)).mpr
      (h a ha b ((hout b).mpr ⟨hb, hcut⟩))
  · intro h a ha b hb
    obtain ⟨hmatching, hcut⟩ := (hout b).mp hb
    exact (before_iff_rowKey (hcomplete a (hpage a ha)) (hcomplete b hmatching)).mp
      (h a ha b hmatching hcut)

end Step

/-! ## Runs -/

section Run

variable {config : AlarmListConfig} {view : AlarmView}

theorem destroyed_step (config : AlarmListConfig) (view : AlarmView) (label : ViewLabel) :
    (view.step config label).widget.destroyed = view.widget.destroyed := by
  cases label with
  | stored alarm =>
    rw [step, AlarmListWidget.applyEvent]
    split <;> rfl
  | refreshed =>
    rw [step, refresh, AlarmListWidget.refreshed]
    split <;> rfl
  | failed text =>
    rw [step, refresh, AlarmListWidget.refreshed]
    split <;> rfl

theorem showsTop_step_iff (hlive : view.widget.destroyed = false) (h : view.ShowsTop config)
    (label : ViewLabel) :
    (view.step config label).ShowsTop config ↔ view.MissesNone config label := by
  cases label with
  | stored alarm => exact showsTop_stored_iff hlive h alarm
  | refreshed => exact showsTop_refreshed_iff hlive
  | failed text =>
    refine iff_of_true ?_ trivial
    rw [step, refresh, ShowsTop, AlarmListWidget.refreshed_error hlive]
    exact ⟨rfl, h.2⟩

/-- What the labels lead to. -/
def run (config : AlarmListConfig) (view : AlarmView) (labels : List ViewLabel) : AlarmView :=
  labels.foldl (step config) view

/-- **From a refresh on, the widget shows the first `maxRows` alarms that match the filter, in every
state reached, if and only if nothing that happens misses a row.** -/
theorem showsTop_iff (config : AlarmListConfig) {view : AlarmView}
    (hlive : view.widget.destroyed = false) (labels : List ViewLabel) :
    (∀ past, past <+: labels →
        ((view.step config .refreshed).run config past).ShowsTop config) ↔
      view.MissesNone config .refreshed ∧ ∀ past label, past ++ [label] <+: labels →
        ((view.step config .refreshed).run config past).MissesNone config label := by
  have hstart : (view.step config .refreshed).ShowsTop config ↔
      view.MissesNone config .refreshed := showsTop_refreshed_iff hlive
  have hrun (h : (view.step config .refreshed).ShowsTop config) :
      (∀ past, past <+: labels →
        ((view.step config .refreshed).run config past).ShowsTop config) ↔
      ∀ past label, past ++ [label] <+: labels →
        ((view.step config .refreshed).run config past).MissesNone config label := by
    refine Trace.forall_prefix_iff
      (I := fun v : AlarmView ↦ v.widget.destroyed = false ∧ v.ShowsTop config)
      (fun h ↦ h.2) ?_ ?_ ⟨(destroyed_step ..).trans hlive, h⟩ labels
    · exact fun h hnone ↦
        ⟨(destroyed_step ..).trans h.1, (showsTop_step_iff h.1 h.2 _).mpr hnone⟩
    · exact fun h hmissed htop ↦ hmissed ((showsTop_step_iff h.1 h.2 _).mp htop)
  constructor
  · intro h
    have hfirst := h [] (List.nil_prefix)
    exact ⟨hstart.mp hfirst, (hrun hfirst).mp h⟩
  · rintro ⟨hpage, hsteps⟩
    exact (hrun (hstart.mpr hpage)).mpr hsteps

/-- A widget of one row, and the database of two alarms that wait for an acknowledgement: the
critical one is the older. -/
def oneRow : AlarmListConfig := ⟨none, .open, 1, by decide, by decide⟩

def twoWaiting : AlarmView where
  table := (AlarmTable.empty.store ⟨⟨1, .activeUnacked, some .critical, some .high, some "p", none,
    some 0⟩, ⟨rfl, rfl, rfl, rfl⟩⟩).store ⟨⟨2, .activeUnacked, some .info, some .high, some "p",
    none, some 1⟩, ⟨rfl, rfl, rfl, rfl⟩⟩
  widget := {}

/-- A critical alarm is raised, and the list is refreshed. -/
def raisedAndRefreshed : List ViewLabel :=
  [.stored ⟨⟨3, .activeUnacked, some .critical, some .high, some "p", none, some 2⟩,
    ⟨rfl, rfl, rfl, rfl⟩⟩, .refreshed]

theorem showsTop_iff_twoWaiting : twoWaiting.widget.destroyed = false ∧
    ((∀ past, past <+: raisedAndRefreshed →
        ((twoWaiting.step oneRow .refreshed).run oneRow past).ShowsTop oneRow) ↔
      twoWaiting.MissesNone oneRow .refreshed ∧
        ∀ past label, past ++ [label] <+: raisedAndRefreshed →
          ((twoWaiting.step oneRow .refreshed).run oneRow past).MissesNone oneRow label) :=
  ⟨rfl, showsTop_iff oneRow rfl raisedAndRefreshed⟩

/-- The page of one row holds the latest alarm, which is not the first. -/
theorem not_showsTop : ¬ ∀ (config : AlarmListConfig) (view : AlarmView),
    view.widget.destroyed = false → ∀ labels past : List ViewLabel, past <+: labels →
      ((view.step config .refreshed).run config past).ShowsTop config := by
  intro h
  have htop := (h oneRow twoWaiting rfl [] [] List.nil_prefix).2
  revert htop
  decide

end Run

end AlarmView

end AlarmList

end Superviseur
