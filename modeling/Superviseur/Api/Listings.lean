import Mathlib.Data.Prod.Lex
import Mathlib.Data.String.Basic
import Mathlib.Order.WithBot
import Superviseur.Alarms.Store
import Superviseur.Library.Groups
import Superviseur.Library.Like
import Superviseur.Library.Pages

/-!
# Lists of alarms and of points

`list_alarms` and `list_points` return a page of the rows that pass the filters of a request, with
the number of these rows. The rows of each request come in an order of `ORDER BY`, that the database
chooses where the keys are equal. The tags and the latest values of a page of points are read in two
queries for all its points.

The alarms are ordered by instant, then by identifier, so that the pages of a list put together are
the alarms that pass the filters, each once, the latest first (`alarms_listed`). The points are
ordered by path, then by name: **the pages put together are the points that pass the filters, each
once, if and only if no two of these have the same path and the same name**
(`points_listed_iff`). Nothing in the table forbids it.

The identifiers are ordered as numbers, and the texts by a collation that tells them apart.
-/

namespace Superviseur.Listings

/-! ## Tables -/

/-- A row of `point`, with the columns of `PointOut`. -/
structure Point where
  id : Uuid
  deviceId : Uuid
  name : String
  description : Option String
  objectType : String
  objectInstance : ℤ
  unit : Option String
  writable : Bool
  covCapable : Bool
  missing : Bool
  path : Option String
  deriving DecidableEq

/-- A row of `point_tag`. -/
structure PointTag where
  pointId : Uuid
  tag : String
  deriving DecidableEq

/-- A row of `point_latest`. -/
structure PointLatest extends LatestValue where
  pointId : Uuid

/-- A row of `alarm_rule`, with the columns of `AlarmOut`. -/
structure AlarmRule where
  id : Uuid
  pointId : Uuid
  name : Option String
  kind : String
  threshold : Option PyFloat
  severity : String

/-- The tables, with their primary keys and the references of one to another. -/
structure Database where
  points : List Point
  tags : List PointTag
  latest : List PointLatest
  rules : List AlarmRule
  events : List AlarmEvent
  nodup_points : (points.map (·.id)).Nodup
  nodup_tags : tags.Nodup
  nodup_latest : (latest.map (·.pointId)).Nodup
  nodup_rules : (rules.map (·.id)).Nodup
  nodup_events : (events.map (·.id)).Nodup
  exists_point : ∀ rule ∈ rules, ∃ point ∈ points, point.id = rule.pointId
  exists_rule : ∀ event ∈ events, ∃ rule ∈ rules, rule.id = event.ruleId

/-- A row of `_alarm_query`. -/
structure AlarmRow where
  event : AlarmEvent
  rule : AlarmRule
  point : Point

/-- `_alarm_query`. -/
def Database.alarms (db : Database) : List AlarmRow :=
  db.events.flatMap fun event ↦ (db.rules.filter (·.id = event.ruleId)).flatMap fun rule ↦
    (db.points.filter (·.id = rule.pointId)).map fun point ↦ ⟨event, rule, point⟩

/-! ## Filters -/

/-- The escape character of `autoescape`. -/
def escape : Char := '/'

/-- `column.startswith(text, autoescape=True)`, for a column that may be null. -/
def startswith (column : Option String) (text : String) : Bool :=
  column.any fun value ↦
    (Like.like escape (Like.autoescape escape text.toList ++ ['%']) value.toList).getD false

/-- `column.icontains(text, autoescape=True)`, for a column that may be null; `lower` is that of the
database. -/
def icontains (lower : Char → Char) (column : Option String) (text : String) : Bool :=
  column.any fun value ↦
    (Like.like escape (('%' :: (Like.autoescape escape text.toList ++ ['%'])).map lower)
      (value.toList.map lower)).getD false

/-- A parameter that is not given, or empty, filters nothing. -/
def unlessEmpty (parameter : Option String) (condition : String → Bool) : Bool :=
  parameter.all fun text ↦ text = "" || condition text

/-- `STATE_GROUPS`. -/
def stateGroups : List (String × List AlarmState) :=
  [("open", [.activeUnacked, .activeAcked, .clearedUnacked]),
    ("active", [.activeUnacked, .activeAcked]),
    ("unacked", [.activeUnacked, .clearedUnacked]),
    ("closed", [.normal])]

/-- The states that a value of `state` lets through, or the refusal of the request. -/
def statesOf (state : String) : Except String (List AlarmState) :=
  let states : List AlarmState := [.normal, .pending, .activeUnacked, .activeAcked, .clearedUnacked]
  match stateGroups.lookup state with
  | some group => .ok group
  | none =>
    if state = "all" then .ok states
    else if state ∈ states.map AlarmState.value then .ok (states.filter (·.value = state))
    else .error ("état inconnu : " ++ state)

/-- The filters of `list_alarms`. -/
structure AlarmFilter where
  state : String
  severity : Option String
  path : Option String
  point : Option Uuid

/-- The conditions of `list_alarms` on a row, for the states that are let through. -/
def AlarmFilter.admits (f : AlarmFilter) (states : List AlarmState) (row : AlarmRow) : Bool :=
  row.event.state ∈ states && unlessEmpty f.severity (row.rule.severity == ·) &&
    unlessEmpty f.path (startswith row.point.path) && f.point.all (row.point.id == ·)

/-- The filters of `list_points`. -/
structure PointFilter where
  path : Option String
  tag : Option String
  device : Option Uuid
  q : Option String
  writable : Option Bool
  includeMissing : Bool

/-- `_filters`. -/
def PointFilter.admits (lower : Char → Char) (db : Database) (f : PointFilter) (p : Point) : Bool :=
  (f.includeMissing || !p.missing) && unlessEmpty f.path (startswith p.path) &&
    f.device.all (p.deviceId == ·) &&
    unlessEmpty f.q (fun q ↦ icontains lower (some p.name) q || icontains lower p.description q ||
      icontains lower p.path q) &&
    unlessEmpty f.tag (fun tag ↦ decide ((⟨p.id, tag⟩ : PointTag) ∈ db.tags)) &&
    f.writable.all (p.writable == ·)

/-! ## Requests -/

/-- `MAX_PAGE`; the same for alarms. -/
def maxPage : ℕ := 500

/-- The parameters `limit` and `offset`, validated. -/
structure Window where
  limit : ℕ
  offset : ℕ
  one_le : 1 ≤ limit
  le_max : limit ≤ maxPage

/-- `AlarmPage`, `PointPage`. -/
structure Page (α : Type) where
  items : List α
  total : ℕ
  limit : ℕ
  offset : ℕ

/-- `LatestOut`. -/
abbrev LatestOut := LatestValue

/-- `PointOut`. -/
structure PointOut where
  point : Point
  tags : List String
  latest : Option LatestOut

/-- `AlarmOut`. -/
structure AlarmOut where
  id : Uuid
  ruleId : Uuid
  ruleName : Option String
  kind : String
  severity : String
  state : AlarmState
  pointId : Uuid
  pointName : String
  path : Option String
  unit : Option String
  threshold : Option PyFloat
  value : Option PyFloat
  raisedAt : Instant
  ackedAt : Option Instant
  ackedBy : Option String
  clearedAt : Option Instant

/-- `_to_alarm`. -/
def AlarmRow.toAlarm (row : AlarmRow) : AlarmOut where
  id := row.event.id
  ruleId := row.rule.id
  ruleName := row.rule.name
  kind := row.rule.kind
  severity := row.rule.severity
  state := row.event.state
  pointId := row.point.id
  pointName := row.point.name
  path := row.point.path
  unit := row.point.unit
  threshold := row.rule.threshold
  value := row.event.raisedValue
  raisedAt := row.event.raisedAt
  ackedAt := row.event.ackedAt
  ackedBy := row.event.ackedBy
  clearedAt := row.event.clearedAt

/-- How the database orders the rows of each query of a request. -/
structure Orders where
  alarms : List AlarmRow → List AlarmRow
  points : List Point → List Point
  tags : List PointTag → List PointTag

/-- `list_alarms`. -/
def listAlarms (orders : Orders) (db : Database) (f : AlarmFilter) (window : Window) :
    Except String (Page AlarmOut) := do
  let states ← statesOf f.state
  let rows := db.alarms.filter (f.admits states)
  return {
    items := (Pages.page window.limit window.offset (orders.alarms rows)).map AlarmRow.toAlarm
    total := rows.length
    limit := window.limit
    offset := window.offset }

/-- `_decorate`: the tags and the latest values of all the points are read in one query each. -/
def decorate (orders : Orders) (db : Database) (points : List Point) : List PointOut :=
  let ids := points.map (·.id)
  let tags := (orders.tags (db.tags.filter (·.pointId ∈ ids))).foldl
    (fun (tags : Groups Uuid String) row ↦ tags.update row.pointId (· ++ [row.tag])) []
  let latest := db.latest.filter (·.pointId ∈ ids)
  points.map fun p ↦
    { point := p
      tags := tags.get p.id
      latest := (latest.find? (·.pointId = p.id)).map (·.toLatestValue) }

/-- `list_points`. -/
def listPoints (lower : Char → Char) (orders : Orders) (db : Database) (f : PointFilter)
    (window : Window) : Page PointOut :=
  let rows := db.points.filter (f.admits lower db)
  { items := decorate orders db (Pages.page window.limit window.offset (orders.points rows))
    total := rows.length
    limit := window.limit
    offset := window.offset }

/-! ## Orders -/

/-- `raised_at DESC, id`. -/
def AlarmRow.key (row : AlarmRow) : ℚᵒᵈ ×ₗ ℕ :=
  toLex (OrderDual.toDual row.event.raisedAt, row.event.id)

section

variable {κ : Type} [LinearOrder κ] (collate : String ↪ κ)

/-- `path, name`, the points without a path coming last. -/
def Point.key (p : Point) : WithTop κ ×ₗ κ :=
  toLex (p.path.elim ⊤ fun path ↦ (collate path : WithTop κ), collate p.name)

/-- The database orders the rows of every query as it says. -/
structure Orders.Valid (orders : Orders) : Prop where
  alarms : ∀ rows, Pages.Ordered AlarmRow.key rows (orders.alarms rows)
  points : ∀ rows, Pages.Ordered (Point.key collate) rows (orders.points rows)
  tags : ∀ rows, Pages.Ordered (fun row : PointTag ↦ collate row.tag) rows (orders.tags rows)

/-- The rows of equal keys as they stand. -/
def Orders.stable : Orders where
  alarms := Pages.sort AlarmRow.key
  points := Pages.sort (Point.key collate)
  tags := Pages.sort fun row ↦ collate row.tag

theorem valid_stable : (Orders.stable collate).Valid collate :=
  ⟨fun _ ↦ Pages.ordered_sort, fun _ ↦ Pages.ordered_sort, fun _ ↦ Pages.ordered_sort⟩

end

/-! ## What the filters let through -/

theorem startswith_iff {column : Option String} {text : String} :
    startswith column text = true ↔
      ∃ value, column = some value ∧ text.toList <+: value.toList := by
  cases column with
  | none => simp [startswith]
  | some value =>
    simp [startswith, Like.like_startswith (show escape ≠ '%' by decide)]

/-- `lower` neither changes a character that is special in a pattern, nor makes one. -/
theorem icontains_iff {lower : Char → Char} {column : Option String} {text : String}
    (h : ∀ c, (c = escape ∨ c = '%' ∨ c = '_') ∨
      (lower c = escape ∨ lower c = '%' ∨ lower c = '_') → lower c = c) :
    icontains lower column text = true ↔
      ∃ value, column = some value ∧ text.toList.map lower <:+: value.toList.map lower := by
  have hpattern : ('%' :: (Like.autoescape escape text.toList ++ ['%'])).map lower =
      '%' :: (Like.autoescape escape (text.toList.map lower) ++ ['%']) := by
    rw [List.map_cons, List.map_append, Like.map_autoescape h, List.map_singleton,
      h '%' (.inl (.inr (.inl rfl)))]
  cases column with
  | none => simp [icontains]
  | some value =>
    rw [icontains, Option.any_some, hpattern,
      Like.like_contains (show escape ≠ '%' by decide), Option.getD_some, decide_eq_true_iff]
    simp

theorem unlessEmpty_iff {parameter : Option String} {condition : String → Bool} :
    unlessEmpty parameter condition = true ↔
      ∀ text, parameter = some text → text ≠ "" → condition text = true := by
  cases parameter with
  | none => simp [unlessEmpty]
  | some text =>
    simp [unlessEmpty, or_iff_not_imp_left]

/-- The row passes the filters, its state aside. -/
structure AlarmFilter.Selects (f : AlarmFilter) (row : AlarmRow) : Prop where
  severity : ∀ text, f.severity = some text → text ≠ "" → row.rule.severity = text
  path : ∀ text, f.path = some text → text ≠ "" →
    ∃ path, row.point.path = some path ∧ text.toList <+: path.toList
  point : ∀ id, f.point = some id → row.point.id = id

theorem AlarmFilter.admits_iff {f : AlarmFilter} {states : List AlarmState} {row : AlarmRow} :
    f.admits states row = true ↔ row.event.state ∈ states ∧ f.Selects row := by
  rw [admits, Bool.and_eq_true, Bool.and_eq_true, Bool.and_eq_true, decide_eq_true_iff,
    unlessEmpty_iff, unlessEmpty_iff, Option.all_eq_true]
  simp only [startswith_iff, beq_iff_eq]
  constructor
  · rintro ⟨⟨⟨hstate, hseverity⟩, hpath⟩, hpoint⟩
    exact ⟨hstate, hseverity, hpath, hpoint⟩
  · rintro ⟨hstate, hseverity, hpath, hpoint⟩
    exact ⟨⟨⟨hstate, hseverity⟩, hpath⟩, hpoint⟩

/-! ## Rows of the tables -/

section

variable {α β : Type} [DecidableEq β] {f : α → β} {xs : List α}

theorem filter_key (h : (xs.map f).Nodup) {x : α} (hx : x ∈ xs) : xs.filter (f · = f x) = [x] := by
  obtain ⟨before, after, rfl⟩ := List.append_of_mem hx
  have hne : ∀ y ∈ before ++ after, ¬f y = f x := by
    intro y hy heq
    rw [List.map_append, List.map_cons] at h
    refine (List.nodup_cons.mp (List.nodup_middle.mp h)).1 ?_
    rw [← List.map_append, ← heq]
    exact List.mem_map_of_mem hy
  have hnone : ∀ ys : List α, (∀ y ∈ ys, ¬f y = f x) → ys.filter (f · = f x) = [] := fun ys hys ↦
    List.filter_eq_nil_iff.mpr fun y hy heq ↦ hys y hy (of_decide_eq_true heq)
  rw [List.filter_append, List.filter_cons_of_pos (by simp),
    hnone before fun y hy ↦ hne y (List.mem_append_left _ hy),
    hnone after fun y hy ↦ hne y (List.mem_append_right _ hy), List.nil_append]

end

namespace Database

variable {db : Database}

/-- Each alarm has one row, with its rule and the point of this rule. -/
theorem alarms_event : db.alarms.map (·.event) = db.events := by
  rw [alarms, List.map_flatMap]
  refine (List.flatMap_congr fun event hevent ↦ ?_).trans (List.flatMap_singleton' _)
  obtain ⟨rule, hrule, hid⟩ := db.exists_rule event hevent
  obtain ⟨point, hpoint, hpid⟩ := db.exists_point rule hrule
  rw [← hid, filter_key db.nodup_rules hrule, List.flatMap_singleton, ← hpid,
    filter_key db.nodup_points hpoint]
  rfl

theorem nodup_alarms : (db.alarms.map (·.event.id)).Nodup := by
  have h := db.nodup_events
  rw [← alarms_event, List.map_map] at h
  exact h

end Database

theorem AlarmRow.key_lt_iff {a b : AlarmRow} : a.key < b.key ↔
    b.event.raisedAt < a.event.raisedAt ∨
      a.event.raisedAt = b.event.raisedAt ∧ a.event.id < b.event.id := by
  rw [key, key, Prod.Lex.toLex_lt_toLex]
  rfl

/-! ## Alarms -/

section

variable {κ : Type} [LinearOrder κ] {collate : String ↪ κ} {orders : ℕ → Orders} {db : Database}
  {limit : ℕ}

/-- The pages of a list of alarms, each read by its own request, are the alarms that pass the
filters, each once, the latest first; every page has their number. -/
theorem alarms_listed (h : ∀ k, (orders k).Valid collate) (one_le : 1 ≤ limit)
    (le_max : limit ≤ maxPage) {f : AlarmFilter} {pages : ℕ → Page AlarmOut}
    (hpages : ∀ k, listAlarms (orders k) db f ⟨limit, k * limit, one_le, le_max⟩ = .ok (pages k))
    {count : ℕ} (hcount : (pages 0).total ≤ count * limit) :
    ∃ (states : List AlarmState) (rows : List AlarmRow), statesOf f.state = .ok states ∧
      (∀ row, row ∈ rows ↔ row ∈ db.alarms ∧ row.event.state ∈ states ∧ f.Selects row) ∧
      (rows.Pairwise fun a b ↦ b.event.raisedAt < a.event.raisedAt ∨
        a.event.raisedAt = b.event.raisedAt ∧ a.event.id < b.event.id) ∧
      ((List.range count).flatMap fun k ↦ (pages k).items) = rows.map AlarmRow.toAlarm ∧
      ∀ k, (pages k).total = rows.length := by
  cases hstates : statesOf f.state with
  | error detail =>
    have h0 := hpages 0
    rw [listAlarms, hstates] at h0
    nomatch h0
  | ok states =>
  let found := db.alarms.filter (f.admits states)
  have hpage : ∀ k, pages k = ⟨(Pages.page limit (k * limit) ((orders k).alarms found)).map
      AlarmRow.toAlarm, found.length, limit, k * limit⟩ := by
    intro k
    have hk := hpages k
    rw [listAlarms, hstates] at hk
    exact (Except.ok.inj hk).symm
  have hids : (found.map (·.event.id)).Nodup := db.nodup_alarms.sublist (List.filter_sublist.map _)
  have hkey : ∀ a ∈ found, ∀ b ∈ found, a.key = b.key → a = b := by
    intro a ha b hb hab
    exact List.inj_on_of_nodup_map hids ha hb (congrArg (fun key ↦ (ofLex key).2) hab)
  have hordered := (h 0).alarms found
  refine ⟨states, (orders 0).alarms found, rfl, fun row ↦ ?_, ?_, ?_, fun k ↦ ?_⟩
  · rw [hordered.perm.mem_iff, List.mem_filter, AlarmFilter.admits_iff]
  · have hnodup : ((orders 0).alarms found).Nodup := hordered.perm.nodup_iff.mpr hids.of_map
    refine (hordered.sorted.and hnodup).imp_of_mem fun {a b} ha hb hab ↦ ?_
    refine AlarmRow.key_lt_iff.mp (lt_of_le_of_ne hab.1 fun heq ↦ hab.2 ?_)
    exact hkey a (hordered.perm.mem_iff.mp ha) b (hordered.perm.mem_iff.mp hb) heq
  · rw [hpage 0] at hcount
    rw [← Pages.walk_eq hkey (fun k ↦ (h k).alarms found) hcount hordered, Pages.walk,
      List.map_flatMap]
    exact List.flatMap_congr fun k _ ↦ by rw [hpage k]
  · rw [hpage k]
    exact hordered.perm.length_eq.symm

/-- Two alarms of one instant. -/
def twoAlarms : Database where
  points := [⟨1, 9, "T1", none, "analog-input", 0, some "°C", false, true, false, some "A/T1"⟩]
  tags := []
  latest := []
  rules := [⟨2, 1, none, "high", some (.fin 30), "critical"⟩, ⟨3, 1, none, "stale", none, "info"⟩]
  events := [⟨5, 3, .activeUnacked, 60, none, none, none, none⟩,
    ⟨4, 2, .clearedUnacked, 60, none, none, some 90, some (.fin 31)⟩]
  nodup_points := by decide
  nodup_tags := by decide
  nodup_latest := by decide
  nodup_rules := by decide
  nodup_events := by decide
  exists_point := by decide
  exists_rule := by decide

/-- The filters of the alarms that are not closed, under a path. -/
def openUnder (path : String) : AlarmFilter := ⟨"open", none, some path, none⟩

theorem alarms_listed_twoAlarms : ∃ (pages : ℕ → Page AlarmOut) (states : List AlarmState)
    (rows : List AlarmRow), statesOf "open" = .ok states ∧
      (∀ row, row ∈ rows ↔ row ∈ twoAlarms.alarms ∧ row.event.state ∈ states ∧
        (openUnder "A").Selects row) ∧
      (rows.Pairwise fun a b ↦ b.event.raisedAt < a.event.raisedAt ∨
        a.event.raisedAt = b.event.raisedAt ∧ a.event.id < b.event.id) ∧
      ((List.range 2).flatMap fun k ↦ (pages k).items) = rows.map AlarmRow.toAlarm ∧
      ∀ k, (pages k).total = rows.length := by
  let collate : String ↪ String := .refl String
  let rows := twoAlarms.alarms.filter
    ((openUnder "A").admits [.activeUnacked, .activeAcked, .clearedUnacked])
  let pages : ℕ → Page AlarmOut := fun k ↦
    ⟨(Pages.page 1 (k * 1) (Pages.sort AlarmRow.key rows)).map AlarmRow.toAlarm, rows.length, 1,
      k * 1⟩
  have hcount : rows.length ≤ 2 * 1 := List.length_filter_le _ _
  have hpages : ∀ k, listAlarms (Orders.stable collate) twoAlarms (openUnder "A")
      ⟨1, k * 1, le_rfl, by decide⟩ = .ok (pages k) := fun _ ↦ rfl
  exact ⟨pages, alarms_listed (fun _ ↦ valid_stable collate) le_rfl (by decide) hpages hcount⟩

/-! ## Points -/

/-- A point with all its tags, in order, and its latest value. -/
def Database.pointOut (db : Database) (collate : String ↪ κ) (p : Point) : PointOut where
  point := p
  tags := (Pages.sort (fun row : PointTag ↦ collate row.tag)
    (db.tags.filter (·.pointId = p.id))).map (·.tag)
  latest := (db.latest.find? (·.pointId = p.id)).map (·.toLatestValue)

theorem get_tags {rows : List PointTag} {m : Groups Uuid String} {id : Uuid} :
    (rows.foldl (fun tags row ↦ tags.update row.pointId (· ++ [row.tag])) m).get id =
      m.get id ++ (rows.filter (·.pointId = id)).map (·.tag) := by
  induction rows generalizing m with
  | nil => exact (List.append_nil _).symm
  | cons row rows ih =>
    rw [List.foldl_cons, ih]
    by_cases hrow : row.pointId = id
    · subst hrow
      rw [Groups.get_update_self, List.filter_cons_of_pos (by simp), List.map_cons,
        List.append_assoc, List.singleton_append]
    · rw [Groups.get_update_of_ne (Ne.symm hrow), List.filter_cons_of_neg (by simpa using hrow)]

/-- The two queries for all the points of a page give each point its own. -/
theorem decorate_eq {orders : Orders} (h : orders.Valid collate) (points : List Point) :
    decorate orders db points = points.map (db.pointOut collate) := by
  refine List.map_congr_left fun p hp ↦ ?_
  have hmem : p.id ∈ points.map (·.id) := List.mem_map_of_mem hp
  have hids : ∀ id, id = p.id → id ∈ points.map (·.id) := fun id hid ↦ hid ▸ hmem
  have hlatest : ((db.latest.filter (·.pointId ∈ points.map (·.id))).find? (·.pointId = p.id)) =
      db.latest.find? (·.pointId = p.id) := by
    rw [List.find?_filter]
    refine congrArg (List.find? · db.latest) (funext fun row ↦ ?_)
    rw [Bool.eq_iff_iff, decide_eq_true_iff, decide_eq_true_iff, decide_eq_true_iff]
    exact and_iff_right_of_imp (hids row.pointId)
  have hown : (db.tags.filter (·.pointId ∈ points.map (·.id))).filter (·.pointId = p.id) =
      db.tags.filter (·.pointId = p.id) := by
    rw [List.filter_filter]
    refine congrArg (List.filter · db.tags) (funext fun row ↦ ?_)
    rw [Bool.eq_iff_iff, Bool.and_eq_true, decide_eq_true_iff, decide_eq_true_iff]
    exact and_iff_left_of_imp (hids row.pointId)
  have htags := (h.tags (db.tags.filter (·.pointId ∈ points.map (·.id)))).filter (·.pointId = p.id)
  rw [hown] at htags
  rw [Database.pointOut, ← hlatest, ← htags.unique ?_ Pages.ordered_sort]
  · congr 1
    exact get_tags
  -- Of one point, a tag is one row.
  intro a ha b hb hab
  have hpoint : ∀ row ∈ db.tags.filter (·.pointId = p.id), row.pointId = p.id := fun row hrow ↦
    of_decide_eq_true (List.mem_filter.mp hrow).2
  have htag : a.tag = b.tag := collate.injective hab
  cases a
  cases b
  rw [PointTag.mk.injEq]
  exact ⟨(hpoint _ ha).trans (hpoint _ hb).symm, htag⟩

omit [LinearOrder κ] in
theorem Point.key_eq_iff {a b : Point} :
    a.key collate = b.key collate ↔ a.path = b.path ∧ a.name = b.name := by
  have hpath : ∀ x y : Option String, (x.elim ⊤ fun path ↦ (collate path : WithTop κ)) =
      (y.elim ⊤ fun path ↦ (collate path : WithTop κ)) ↔ x = y := by
    intro x y
    cases x <;> cases y <;> simp
  rw [key, key, EmbeddingLike.apply_eq_iff_eq, Prod.mk.injEq, hpath, collate.injective.eq_iff]

variable {lower : Char → Char} {f : PointFilter}

/-- The pages of a list of points, each read by its own request, are the points that pass the
filters, each once with its tags and its latest value, if and only if no two of these have the same
path and the same name. -/
theorem points_listed_iff : (∀ orders : ℕ → Orders, (∀ k, (orders k).Valid collate) →
      ∀ limit one_le le_max count,
        (listPoints lower (orders 0) db f ⟨limit, 0, one_le, le_max⟩).total ≤ count * limit →
        ((List.range count).flatMap fun k ↦ (listPoints lower (orders k) db f
          ⟨limit, k * limit, one_le, le_max⟩).items).Perm
            ((db.points.filter (f.admits lower db)).map (db.pointOut collate))) ↔
    ∀ a ∈ db.points, ∀ b ∈ db.points, f.admits lower db a → f.admits lower db b →
      a.path = b.path → a.name = b.name → a = b := by
  have hitems : ∀ orders : ℕ → Orders, (∀ k, (orders k).Valid collate) →
      ∀ limit one_le le_max count,
        ((List.range count).flatMap fun k ↦ (listPoints lower (orders k) db f
          ⟨limit, k * limit, one_le, le_max⟩).items) =
        (Pages.walk limit (fun k ↦ (orders k).points (db.points.filter (f.admits lower db)))
          count).map (db.pointOut collate) := by
    intro orders horders limit one_le le_max count
    rw [Pages.walk, List.map_flatMap]
    exact List.flatMap_congr fun k _ ↦ decorate_eq (horders k) _
  have hnodup : (db.points.filter (f.admits lower db)).Nodup := db.nodup_points.of_map.filter _
  constructor
  · intro hpages a ha b hb hadmits hadmits' hpath hname
    by_contra hab
    have hkey : a.key collate = b.key collate := Point.key_eq_iff.mpr ⟨hpath, hname⟩
    obtain ⟨results, hresults, hnot⟩ := Pages.exists_walk_not_mem
      (List.mem_filter.mpr ⟨hb, hadmits'⟩) (List.mem_filter.mpr ⟨ha, hadmits⟩) hab hkey hnodup
    let orders : ℕ → Orders := fun k ↦ { Orders.stable collate with
      points := fun rows ↦ if rows = db.points.filter (f.admits lower db) then results k
        else Pages.sort (Point.key collate) rows }
    have horders : ∀ k, (orders k).Valid collate := by
      refine fun k ↦ { valid_stable collate with points := fun rows ↦ ?_ }
      dsimp only [orders]
      split
      · rename_i hrows
        rw [hrows]
        exact hresults k
      · exact Pages.ordered_sort
    have hperm := hpages orders horders 1 le_rfl (by decide)
      (db.points.filter (f.admits lower db)).length (Nat.le_mul_of_pos_right _ one_pos)
    rw [hitems orders horders] at hperm
    have hb' : db.pointOut collate b ∈ (db.points.filter (f.admits lower db)).map
        (db.pointOut collate) := List.mem_map_of_mem (List.mem_filter.mpr ⟨hb, hadmits'⟩)
    obtain ⟨c, hc, hcb⟩ := List.mem_map.mp (hperm.mem_iff.mpr hb')
    have hcb : c = b := congrArg PointOut.point hcb
    subst hcb
    refine hnot (db.points.filter (f.admits lower db)).length ?_
    simpa only [orders, if_pos] using hc
  · intro hkey orders horders limit one_le le_max count hcount
    rw [hitems orders horders, Pages.walk_eq ?_ (fun k ↦ (horders k).points _) hcount
      ((horders 0).points _)]
    · exact ((horders 0).points _).perm.map _
    · intro a ha b hb hab
      obtain ⟨hpath, hname⟩ := Point.key_eq_iff.mp hab
      obtain ⟨ha, hadmits⟩ := List.mem_filter.mp ha
      obtain ⟨hb, hadmits'⟩ := List.mem_filter.mp hb
      exact hkey a ha b hb hadmits hadmits' hpath hname

end

end Superviseur.Listings
