import Superviseur.Front.AlarmList

/-!
# The order of the alarms

`compareAlarms` and `applyAlarm`, for any alarms that have their severities, whatever `Date.parse`
and `localeCompare` are. A date that is not one gives `NaN`, and then `NaN || …` leaves the
identifiers to decide, so that the dates of the others count for nothing beside it. Where every date
is one:

- `compareAlarms` is a strict total order on alarms with distinct identifiers;
- the list that `applyAlarm` leaves is the first rows of what it is given: `applyAlarm_eq_first`.
-/

namespace Superviseur

namespace AlarmList

namespace Members

variable {Alarm Id : Type*} (m : Members Alarm Id)

/-! ## What an alarm leaves in the list -/

/-- How many alarms of the list come before. -/
def rank (list : List Alarm) (a : Alarm) : ℕ := list.countP fun b ↦ m.number b a < 0

/-- `rows` is the list after `alarm` is merged in `list`. -/
structure Merged [DecidableEq Id] (list : List Alarm) (alarm : Alarm) (filter : AlarmFilter)
    (maxRows : ℕ) (rows : List Alarm) : Prop where
  sorted : rows.Pairwise fun a b ↦ m.number a b < 0
  ids : (rows.map m.id).Nodup
  /-- The alarm is there if it matches the filter and ranks among the first `maxRows`. -/
  incoming : alarm ∈ rows ↔ m.«matches» alarm filter = true ∧
    m.rank (list.filter fun a ↦ m.id a ≠ m.id alarm) alarm < maxRows
  /-- What the list had under its identifier is not. -/
  replaced : ∀ a ∈ rows, m.id a = m.id alarm → a = alarm
  /-- The others are there if they still rank among the first `maxRows`. -/
  others : ∀ a, m.id a ≠ m.id alarm → (a ∈ rows ↔ a ∈ list ∧
    m.rank ((list.filter fun a ↦ m.id a ≠ m.id alarm) ++
      if m.«matches» alarm filter then [alarm] else []) a < maxRows)
  again : m.applyAlarm rows alarm filter maxRows = rows

/-- What is sorted: the alarms with another identifier, and the alarm if it matches. -/
def candidates [DecidableEq Id] (list : List Alarm) (alarm : Alarm) (filter : AlarmFilter) :
    List Alarm :=
  (list.filter fun a ↦ m.id a ≠ m.id alarm) ++ if m.«matches» alarm filter then [alarm] else []

section Apply

variable [DecidableEq Id] {m} {list : List Alarm} {alarm : Alarm} {filter : AlarmFilter}
  {maxRows : ℕ}

theorem applyAlarm_eq_take : m.applyAlarm list alarm filter maxRows =
    (m.sortAlarms (m.candidates list alarm filter)).take maxRows := by
  rw [applyAlarm, candidates]
  cases m.«matches» alarm filter with
  | true => rfl
  | false =>
    rw [if_neg Bool.false_ne_true, if_neg Bool.false_ne_true, List.append_nil]

theorem mem_candidates {a : Alarm} : a ∈ m.candidates list alarm filter ↔
    a ∈ list ∧ m.id a ≠ m.id alarm ∨ a = alarm ∧ m.«matches» alarm filter = true := by
  rw [candidates, List.mem_append, List.mem_filter, decide_eq_true_iff]
  by_cases hmatches : m.«matches» alarm filter = true
  · simp [hmatches]
  · simp [hmatches]

theorem valid_candidates (hlist : ∀ a ∈ list, m.Valid a) (halarm : m.Valid alarm) :
    ∀ a ∈ m.candidates list alarm filter, m.Valid a := by
  intro a ha
  rcases mem_candidates.mp ha with ⟨ha, -⟩ | ⟨rfl, -⟩
  · exact hlist a ha
  · exact halarm

theorem nodup_candidates (hids : (list.map m.id).Nodup) :
    ((m.candidates list alarm filter).map m.id).Nodup := by
  have hothers : ((list.filter fun a ↦ m.id a ≠ m.id alarm).map m.id).Nodup :=
    hids.sublist (List.filter_sublist.map _)
  rw [candidates, List.map_append, List.nodup_append]
  refine ⟨hothers, ?_, fun id hid id' hid' ↦ ?_⟩
  · split
    · exact List.nodup_singleton _
    · exact List.nodup_nil
  · obtain ⟨a, ha, rfl⟩ := List.mem_map.mp hid
    obtain ⟨b, hb, rfl⟩ := List.mem_map.mp hid'
    have hb : b = alarm := by
      split at hb
      · exact List.mem_singleton.mp hb
      · exact absurd hb List.not_mem_nil
    rw [hb]
    exact of_decide_eq_true (List.mem_filter.mp ha).2

/-! ## The first rows -/

variable {κ : Type*} [LinearOrder κ] {key : Alarm → κ}

omit [DecidableEq Id] in
theorem rank_eq (hkey : Comparators.Reflects m.Valid key m.number) {rows : List Alarm}
    (hrows : ∀ a ∈ rows, m.Valid a) {a : Alarm} (ha : m.Valid a) :
    m.rank rows a = rows.countP fun b ↦ key b < key a := by
  refine List.countP_congr fun b hb ↦ ?_
  rw [decide_eq_true_iff, decide_eq_true_iff]
  exact hkey.neg_iff (hrows b hb) ha

/-- **The list is the first rows** of the candidates. -/
theorem applyAlarm_eq_first (hkey : Comparators.Reflects m.Valid key m.number)
    (hlist : ∀ a ∈ list, m.Valid a) (halarm : m.Valid alarm) :
    m.applyAlarm list alarm filter maxRows =
      Leading.first key maxRows (m.candidates list alarm filter) := by
  rw [applyAlarm_eq_take, sortAlarms, hkey.insertionSort_eq (valid_candidates hlist halarm),
    Leading.first]

theorem filter_candidates : (m.candidates list alarm filter).filter (fun a ↦ m.id a ≠ m.id alarm) =
    list.filter fun a ↦ m.id a ≠ m.id alarm := by
  have hself : (if m.«matches» alarm filter then [alarm] else []).filter
      (fun a ↦ decide (m.id a ≠ m.id alarm)) = [] := by
    refine List.filter_eq_nil_iff.mpr fun a ha ↦ ?_
    split at ha
    · rw [List.mem_singleton.mp ha]
      simp
    · exact absurd ha List.not_mem_nil
  rw [candidates, List.filter_append, hself, List.append_nil, List.filter_filter]
  simp only [Bool.and_self]

theorem first_again (hkeys : ((m.candidates list alarm filter).map key).Nodup) :
    Leading.first key maxRows (m.candidates
        (Leading.first key maxRows (m.candidates list alarm filter)) alarm filter) =
      Leading.first key maxRows (m.candidates list alarm filter) := by
  let new := if m.«matches» alarm filter then some alarm else none
  have hnew : (if m.«matches» alarm filter then [alarm] else []) = new.toList := by
    dsimp only [new]
    split <;> rfl
  have hgone : ∀ a ∈ m.candidates list alarm filter, decide (m.id a ≠ m.id alarm) = false →
      a = alarm ∧ new = some alarm := by
    intro a ha hid
    rcases mem_candidates.mp ha with ⟨-, hne⟩ | ⟨rfl, hmatches⟩
    · exact absurd (of_decide_eq_false hid) (not_not.mpr hne)
    · exact ⟨rfl, if_pos hmatches⟩
  have hother : ∀ x ∈ new, ∀ a ∈ m.candidates list alarm filter,
      decide (m.id a ≠ m.id alarm) = true → key a ≠ key x := by
    intro x hx a ha hid heq
    have hmem : x ∈ m.candidates list alarm filter := by
      rw [candidates, hnew]
      exact List.mem_append_right _ (Option.mem_toList.mpr hx)
    have hx : x = alarm := by
      dsimp only [new] at hx
      split at hx
      · exact (Option.some.inj hx).symm
      · cases hx
    rw [List.inj_on_of_nodup_map hkeys ha hmem heq, hx] at hid
    exact of_decide_eq_true hid rfl
  have hupdate := (Leading.first_update_iff hkeys
    (fun a ha b hb hpa hpb ↦ (hgone a ha hpa).1.trans (hgone b hb hpb).1.symm) new hother
    maxRows).mpr
  rw [filter_candidates, ← hnew] at hupdate
  refine hupdate fun c hc ⟨a, ha, hpa⟩ ↦ ?_
  obtain ⟨rfl, hsome⟩ := hgone a (Leading.mem_of_mem_first ha) hpa
  -- the first row that is cut comes after the alarm, which is shown
  exact ⟨a, hsome, Leading.before_of_getElem? hkeys ha hc⟩

theorem rank_candidates (hkey : Comparators.Reflects m.Valid key m.number)
    (halarm : m.Valid alarm) : m.rank (m.candidates list alarm filter) alarm =
      m.rank (list.filter fun a ↦ m.id a ≠ m.id alarm) alarm := by
  have hself : ¬ m.number alarm alarm < 0 := by
    rw [hkey.neg_iff halarm halarm]
    exact lt_irrefl _
  rw [rank, candidates, List.countP_append]
  split
  · rw [List.countP_singleton, if_neg (by simpa using hself)]
    rfl
  · rfl

theorem merged (hkey : Comparators.Reflects m.Valid key m.number)
    (hid : ∀ a b : Alarm, key a = key b → m.id a = m.id b) (hids : (list.map m.id).Nodup)
    (hlist : ∀ a ∈ list, m.Valid a) (halarm : m.Valid alarm) (filter : AlarmFilter)
    (maxRows : ℕ) :
    m.Merged list alarm filter maxRows (m.applyAlarm list alarm filter maxRows) := by
  have hnodup : ((m.candidates list alarm filter).map m.id).Nodup := nodup_candidates hids
  have hkeys : ((m.candidates list alarm filter).map key).Nodup :=
    List.pairwise_map.mpr ((List.pairwise_map.mp hnodup).imp fun hne heq ↦ hne (hid _ _ heq))
  have hvalid : ∀ a ∈ m.candidates list alarm filter, m.Valid a := valid_candidates hlist halarm
  have hrow : ∀ a ∈ Leading.first key maxRows (m.candidates list alarm filter), m.Valid a :=
    fun a ha ↦ hvalid a (Leading.mem_of_mem_first ha)
  -- a row is a candidate that few others come before
  have hmem : ∀ a, m.Valid a → (a ∈ Leading.first key maxRows (m.candidates list alarm filter) ↔
      a ∈ m.candidates list alarm filter ∧
        m.rank (m.candidates list alarm filter) a < maxRows) := by
    intro a ha
    rw [Leading.mem_first_iff hkeys, rank_eq hkey hvalid ha]
  rw [applyAlarm_eq_first hkey hlist halarm]
  refine ⟨?_, ?_, ?_, ?_, ?_, ?_⟩
  · refine (Leading.pairwise_first hkeys maxRows).imp_of_mem fun ha hb hlt ↦ ?_
    exact (hkey.neg_iff (hrow _ ha) (hrow _ hb)).mpr hlt
  · have hsorted := ((Leading.sorted_perm key (m.candidates list alarm filter)).map
      m.id).nodup_iff.mpr hnodup
    exact hsorted.sublist ((List.take_sublist _ _).map _)
  · rw [hmem alarm halarm, rank_candidates hkey halarm, mem_candidates]
    simp
  · intro a ha haid
    rcases mem_candidates.mp (Leading.mem_of_mem_first ha) with ⟨-, hne⟩ | ⟨rfl, -⟩
    · exact absurd haid hne
    · rfl
  · intro a hne
    have hcandidate : a ∈ m.candidates list alarm filter ↔ a ∈ list := by
      rw [mem_candidates]
      refine ⟨fun h ↦ ?_, fun ha ↦ .inl ⟨ha, hne⟩⟩
      rcases h with ⟨ha, -⟩ | ⟨rfl, -⟩
      · exact ha
      · exact absurd rfl hne
    constructor
    · intro ha
      obtain ⟨hin, hrank⟩ := (hmem a (hrow a ha)).mp ha
      exact ⟨hcandidate.mp hin, hrank⟩
    · rintro ⟨ha, hrank⟩
      exact (hmem a (hlist a ha)).mpr ⟨hcandidate.mpr ha, hrank⟩
  · rw [applyAlarm_eq_first hkey hrow halarm]
    exact first_again hkeys

end Apply

/-! ## Alarms in order -/

/-- **Alarms in order.** On alarms with distinct identifiers and valid dates, `compareAlarms` is a
strict total order, and `applyAlarm` leaves a list in this order, where the alarm is if and only if
it matches the filter and ranks among the first, and which applying it again leaves as it is. -/
theorem ordered_and_merged [DecidableEq Id] {m : Members Alarm Id}
    (hlocale : Comparators.StrictTotal m.localeCompare) {list : List Alarm}
    (hids : (list.map m.id).Nodup) (hlist : ∀ a ∈ list, m.Valid a) :
    m.StrictTotalOn list ∧ ∀ alarm, m.Valid alarm → ∀ filter maxRows,
      m.Merged list alarm filter maxRows (m.applyAlarm list alarm filter maxRows) := by
  let _ := hlocale.linearOrder
  refine ⟨strictTotalOn hlocale.reflects hlist, fun alarm halarm filter maxRows ↦ ?_⟩
  exact merged (reflects hlocale.reflects) (fun _ _ ↦ id_of_rowKey) hids hlist halarm filter
    maxRows

end Members

theorem strictTotal_localeCompare : Comparators.StrictTotal members.localeCompare :=
  reflects_localeCompare.strictTotal Function.injective_id

/-- Two alarms of one date, that only their identifiers tell apart. -/
def sameDate (id : Uuid) (state : AlarmState) : ListedAlarm :=
  ⟨id, state, some .warning, some .high, some "Soufflage", some "Site/CTA", some 12⟩

theorem ordered_and_merged_sameDate :
    let list := [sameDate 2 .activeUnacked, sameDate 1 .activeUnacked]
    (members.StrictTotalOn list ∧
        members.Merged list (sameDate 3 .activeUnacked) ⟨none, .open⟩ 2
          (members.applyAlarm list (sameDate 3 .activeUnacked) ⟨none, .open⟩ 2)) ∧
      members.Merged list (sameDate 1 .normal) ⟨none, .open⟩ 2
        (members.applyAlarm list (sameDate 1 .normal) ⟨none, .open⟩ 2) := by
  have hids : ([sameDate 2 .activeUnacked, sameDate 1 .activeUnacked].map members.id).Nodup := by
    decide
  have hvalid (id : Uuid) (state : AlarmState) : members.Valid (sameDate id state) := ⟨rfl, rfl⟩
  have hlist : ∀ a ∈ [sameDate 2 .activeUnacked, sameDate 1 .activeUnacked], members.Valid a :=
    List.forall_mem_cons.mpr ⟨hvalid 2 _, List.forall_mem_singleton.mpr (hvalid 1 _)⟩
  have h := Members.ordered_and_merged strictTotal_localeCompare hids hlist
  exact ⟨⟨h.1, h.2 _ (hvalid 3 _) _ _⟩, h.2 _ (hvalid 1 _) _ _⟩

end AlarmList

end Superviseur
