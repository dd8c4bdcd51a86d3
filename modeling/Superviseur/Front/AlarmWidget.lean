import Superviseur.Front.AlarmList
import Superviseur.Front.Viewer
import Mathlib.Data.Prod.Lex

/-!
# The widget of the alarm list

`render` keeps the list of alarms with what its requests and the live connection bring: pages of
`GET /alarms`, answers to acknowledgements, events. A page is cut by the server after the latest
alarms; the list is cut by the widget after the first of its own order.

An alarm of the database has all its members, and so has the alarm of a page, of an answer and, as
its type says, of an event. What the closing of an orphan does to the list is in `AlarmFeed`.
-/

namespace Superviseur

namespace AlarmList

/-! ## The server -/

/-- An alarm with all its members. -/
abbrev Alarm := {a : ListedAlarm // a.Complete}

/-- The alarms of the database, each once. -/
structure AlarmTable where
  rows : List ListedAlarm
  complete : ∀ a ∈ rows, a.Complete
  nodup : (rows.map ListedAlarm.id).Nodup

namespace AlarmTable

def empty : AlarmTable where
  rows := []
  complete := fun _ ha ↦ absurd ha List.not_mem_nil
  nodup := List.nodup_nil

/-- An alarm is raised, or passes to another state. -/
def store (table : AlarmTable) (alarm : Alarm) : AlarmTable where
  rows := (table.rows.filter fun a ↦ a.id ≠ alarm.1.id) ++ [alarm.1]
  complete := by
    intro a ha
    rcases List.mem_append.mp ha with ha | ha
    · exact table.complete a (List.mem_of_mem_filter ha)
    · rw [List.mem_singleton.mp ha]
      exact alarm.2
  nodup := by
    rw [List.map_append, List.nodup_append]
    refine ⟨table.nodup.sublist (List.filter_sublist.map _), List.nodup_singleton _, ?_⟩
    intro i hi j hj
    obtain ⟨a, ha, rfl⟩ := List.mem_map.mp hi
    rw [List.map_singleton, List.mem_singleton] at hj
    rw [hj]
    simpa using (List.mem_filter.mp ha).2

end AlarmTable

/-- `STATE_GROUPS` of the server, which gives every state under any other name of the widget's. -/
def serverStates : StateFilter → List AlarmState
  | .open => [.activeUnacked, .activeAcked, .clearedUnacked]
  | .active => [.activeUnacked, .activeAcked]
  | .unacked => [.activeUnacked, .clearedUnacked]
  | .closed => [.normal]
  | .all => [.activeUnacked, .activeAcked, .clearedUnacked, .normal]

/-- `Point.path.startswith(path, autoescape=True)`: a point without a path is not selected. -/
def pathStartsWith (path : Option String) (start : String) : Bool :=
  match path with
  | none => false
  | some path => start.toList.isPrefixOf path.toList

/-- The `where` of `list_alarms`, under the parameters the widget sends. -/
def selected (alarm : ListedAlarm) (state : StateFilter) (path : Option String) : Bool :=
  decide (alarm.state ∈ serverStates state) &&
    match path with
    | none => true
    | some path => path.toList.isEmpty || pathStartsWith alarm.path path

/-- `order_by(AlarmEvent.raised_at.desc(), AlarmEvent.id)`. -/
def serverKey (alarm : ListedAlarm) : ℚ ×ₗ ℕ := toLex (-alarm.raisedAt.getD 0, alarm.id)

/-- The items of the page `list_alarms` answers with. -/
def listAlarms (table : AlarmTable) (state : StateFilter) (path : Option String) (limit : ℕ) :
    List ListedAlarm :=
  ((table.rows.filter fun a ↦ selected a state path).insertionSort fun a b ↦
    serverKey a ≤ serverKey b).take limit

/-! ## The widget -/

/-- `MAX_ROWS`. -/
def maxRowsLimit : ℕ := 200

/-- What `normalizeConfig` lets through. -/
structure AlarmListConfig where
  path : Option String
  states : StateFilter
  maxRows : ℕ
  one_le : 1 ≤ maxRows
  le_limit : maxRows ≤ maxRowsLimit

def AlarmListConfig.filter (config : AlarmListConfig) : AlarmFilter := ⟨config.path, config.states⟩

/-- An error of the API: the status of the answer, where there is one, and its text. -/
structure ApiFailure where
  status : Option ℕ
  text : String

structure ListMessages where
  load : String := ""
  ack : String := ""
  live : String := ""
  deriving DecidableEq

/-- The variables of `render`. -/
structure AlarmListWidget where
  alarms : List ListedAlarm := []
  loaded : Bool := false
  destroyed : Bool := false
  loadSeq : ℕ := 0
  wasClosed : Bool := false
  acking : List Uuid := []
  messages : ListMessages := {}

namespace AlarmListWidget

/-- `refresh`, up to its request, which has the number `loadSeq`. -/
def refresh (w : AlarmListWidget) : AlarmListWidget := { w with loadSeq := w.loadSeq + 1 }

/-- `refresh`, once its request is answered. -/
def refreshed (config : AlarmListConfig) (w : AlarmListWidget) (seq : ℕ) :
    Except String (List ListedAlarm) → AlarmListWidget
  | .ok items =>
    if seq ≠ w.loadSeq ∨ w.destroyed then w
    else { w with
      alarms := (sortAlarms items).take config.maxRows
      messages := { w.messages with load := "" }
      loaded := true }
  | .error text =>
    if seq ≠ w.loadSeq ∨ w.destroyed then w
    else { w with
      messages := { w.messages with load := "Alarmes indisponibles : " ++ text }
      loaded := true }

/-- `acknowledge`, up to its request; `none` where it sends none. -/
def acknowledge (w : AlarmListWidget) (alarmId : Uuid) : Option AlarmListWidget :=
  if alarmId ∈ w.acking ∨ w.destroyed then none
  else some { w with acking := alarmId :: w.acking, messages := { w.messages with ack := "" } }

/-- The message of a failed acknowledgement. -/
def ackMessage (failure : ApiFailure) : String :=
  if failure.status = some 403 then "Droits insuffisants pour acquitter cette alarme"
  else "Acquittement impossible : " ++ failure.text

/-- `acknowledge`, once its request is answered. A failure starts a refresh. -/
def acknowledged (config : AlarmListConfig) (w : AlarmListWidget) (alarmId : Uuid)
    (answer : Except ApiFailure ListedAlarm) : AlarmListWidget :=
  let acking := w.acking.filter (· ≠ alarmId)
  if w.destroyed then { w with acking := acking }
  else match answer with
    | .ok updated =>
      { w with
        alarms := applyAlarm config.filter config.maxRows w.alarms updated, acking := acking }
    | .error failure =>
      { w.refresh with messages := { w.messages with ack := ackMessage failure }, acking := acking }

/-- `applyEvent`. -/
def applyEvent (config : AlarmListConfig) (w : AlarmListWidget) (event : ListedAlarm) :
    AlarmListWidget :=
  if w.destroyed ∨ ¬ w.loaded then w
  else { w with alarms := applyAlarm config.filter config.maxRows w.alarms event }

/-- The listener of the states of the connection. A connection that opens again starts a
refresh. -/
def onState (w : AlarmListWidget) (state : LiveState) : AlarmListWidget :=
  let live := if state = .closed then "Connexion perdue : la liste peut être en retard" else ""
  let w := { w with messages := { w.messages with live := live } }
  if state = .closed then { w with wasClosed := true }
  else if state = .open ∧ w.wasClosed then { w with wasClosed := false }.refresh
  else w

def destroy (w : AlarmListWidget) : AlarmListWidget := { w with destroyed := true }

end AlarmListWidget

/-! ## The filter of the server is that of the widget -/

theorem selected_eq_matches (alarm : ListedAlarm) (config : AlarmListConfig) :
    selected alarm config.states config.path = «matches» alarm config.filter := by
  obtain ⟨path, states, maxRows, _, _⟩ := config
  have hstates : serverStates states = stateGroups states := by cases states <;> rfl
  have hpath : (match path with
      | none => true
      | some start => start.toList.isEmpty || pathStartsWith alarm.path start)
      = inPath alarm.path ⟨path, states⟩ := by
    cases path with
    | none => rfl
    | some start =>
      cases hpath : alarm.path with
      | none =>
        -- the empty path starts with the empty text only
        cases hstart : start.toList <;> simp [pathStartsWith, inPath, hstart]
      | some p => simp [pathStartsWith, inPath]
  unfold selected «matches» Members.«matches»
  rw [hstates]
  exact congrArg _ hpath

/-- The alarms the list is about. -/
def matching (config : AlarmListConfig) (table : AlarmTable) : List ListedAlarm :=
  table.rows.filter fun a ↦ «matches» a config.filter

theorem listAlarms_eq (config : AlarmListConfig) (table : AlarmTable) :
    listAlarms table config.states config.path config.maxRows =
      ((matching config table).insertionSort fun a b ↦ serverKey a ≤ serverKey b).take
        config.maxRows := by
  rw [listAlarms, matching, funext fun a ↦ selected_eq_matches a config]

/-! ## What a stored alarm changes -/

theorem complete_matching (config : AlarmListConfig) (table : AlarmTable) :
    ∀ a ∈ matching config table, a.Complete :=
  fun a ha ↦ table.complete a (List.mem_of_mem_filter ha)

theorem nodup_matching (config : AlarmListConfig) (table : AlarmTable) :
    ((matching config table).map ListedAlarm.id).Nodup :=
  table.nodup.sublist (List.filter_sublist.map _)

/-- The alarm that comes to the list, if the filter lets it through. -/
def incoming (config : AlarmListConfig) (alarm : ListedAlarm) : Option ListedAlarm :=
  if «matches» alarm config.filter then some alarm else none

theorem matching_store (config : AlarmListConfig) (table : AlarmTable) (alarm : Alarm) :
    matching config (table.store alarm) =
      (matching config table).filter (fun a ↦ a.id ≠ alarm.1.id) ++
        (incoming config alarm.1).toList := by
  rw [matching, AlarmTable.store, List.filter_append, matching, List.filter_filter,
    List.filter_filter]
  congr 1
  · exact List.filter_congr fun a _ ↦ Bool.and_comm _ _
  · rw [incoming, List.filter_singleton]
    cases «matches» alarm.1 config.filter <;> rfl

theorem applyAlarm_eq (config : AlarmListConfig) (list : List ListedAlarm) (alarm : ListedAlarm) :
    applyAlarm config.filter config.maxRows list alarm =
      (sortAlarms (list.filter (fun a ↦ a.id ≠ alarm.id) ++ (incoming config alarm).toList)).take
        config.maxRows := by
  rw [applyAlarm_cases, incoming]
  split
  · rfl
  · rw [Option.toList_none, List.append_nil]

end AlarmList

end Superviseur
