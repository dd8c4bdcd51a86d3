import Superviseur.Alarms.Rows
import Mathlib.Data.List.Find

/-!
# A load that fails half way

A load reads, closes the alarms of the rules it no longer finds, installs the new table of rules and
evaluates the new ones. Where it raises, what it has done so far stays. The next load is compared
here with the one that would have taken place without it: it starts from the same rules, and what
the failed load leaves behind is the instant at which it closed an alarm, and rules that are no
longer new, so that they are not evaluated any more.
-/

namespace Superviseur

/-! ## How a load ends -/

/-- The rules already known, with their new records, while the table of rules is still the old
one. -/
def refreshed (env : Env) (w : AlarmSystem) : AlarmEngine :=
  { w.engine with rules := w.engine.rules.map (refresh env.rules.val) }

/-- The services once the alarms of the rules no longer found are closed, as far as that goes. -/
def closing (env : Env) (w : AlarmSystem) : Services × Option Failure :=
  closeOrphans env (orphansOf env w) w.services

/-- `Loads env w w' failure`: how a load goes, by the place where it raises. -/
inductive Loads (env : Env) (w : AlarmSystem) : AlarmSystem → Option Failure → Prop
  | unread {failure : Failure}
      (h : env.fails .loadRules = true ∨ env.fails .openEvents = true) :
      Loads env w w (some failure)
  | unclosed {failure : Failure} (hrules : env.fails .loadRules = false)
      (hevents : env.fails .openEvents = false) (h : (closing env w).2 = some failure) :
      Loads env w ⟨refreshed env w, (closing env w).1⟩ (some failure)
  | unevaluated {failure : Failure} (hrules : env.fails .loadRules = false)
      (hevents : env.fails .openEvents = false) (hclose : (closing env w).2 = none)
      (h : env.fails .latestValues = true ∨ env.fails .devicesOnline = true) :
      Loads env w ⟨installed env w, (closing env w).1⟩ (some failure)
  | done (hrules : env.fails .loadRules = false) (hevents : env.fails .openEvents = false)
      (hclose : (closing env w).2 = none) :
      Loads env w (AlarmSystem.forEach (freshRules env w) (evaluateInitial env)
        ⟨installed env w, (closing env w).1⟩) none

theorem loads_load (env : Env) (w : AlarmSystem) : Loads env w (load env w).1 (load env w).2 := by
  unfold load
  cases hrules : env.fails .loadRules with
  | true => exact .unread (.inl hrules)
  | false =>
    cases hevents : env.fails .openEvents with
    | true => exact .unread (.inr hevents)
    | false =>
      simp only [Bool.false_eq_true, if_false]
      cases hclosing : closing env w with
      | mk s failure =>
        have hclose := hclosing
        -- the orphans are closed before anything is evaluated
        rw [closing, orphansOf] at hclose
        rw [hclose]
        cases failure with
        | some failure =>
          have h : Loads env w _ _ := .unclosed hrules hevents (congrArg Prod.snd hclosing)
          rw [hclosing] at h
          exact h
        | none =>
          have hnone : (closing env w).2 = none := congrArg Prod.snd hclosing
          dsimp only
          rw [initialEvaluation]
          split
          · rename_i hfresh
            have h := Loads.done hrules hevents hnone
            rw [hclosing, freshRules, hfresh] at h
            exact h
          · split
            · rename_i hlatest
              have h : Loads env w _ (some (.unavailable .latestValues)) :=
                .unevaluated hrules hevents hnone (.inl hlatest)
              rw [hclosing] at h
              exact h
            · split
              · rename_i honline
                have h : Loads env w _ (some (.unavailable .devicesOnline)) :=
                  .unevaluated hrules hevents hnone (.inr honline)
                rw [hclosing] at h
                exact h
              · have h := Loads.done hrules hevents hnone
                rw [hclosing] at h
                exact h

/-! ## The rows a load closes -/

/-- The alarms the loop over the orphans closes: up to the first that cannot be updated, or whose
message cannot be published. -/
def closedBy (env : Env) : List AlarmEvent → List AlarmEvent
  | [] => []
  | e :: orphans =>
    if env.fails (.updateEvent e.ruleId) then []
    else if env.fails (.publish e.ruleId) then [e]
    else e :: closedBy env orphans

/-- The row of an alarm closed because its rule is gone. -/
def closedRow (env : Env) (e : AlarmEvent) : AlarmEvent :=
  { e with
    state := .normal
    clearedAt := some (e.clearedAt.getD (env.wall (.orphan e.ruleId))) }

/-- A row, where those listed are closed. -/
def closeIn (env : Env) (ids : List EventId) (e : AlarmEvent) : AlarmEvent :=
  if e.id ∈ ids then closedRow env e else e

section Closing

variable {env : Env} {s : Services} {e : AlarmEvent}

theorem closedBy_subset (env : Env) (orphans : List AlarmEvent) :
    ∀ e ∈ closedBy env orphans, e ∈ orphans := by
  induction orphans with
  | nil => exact fun _ h ↦ h
  | cons e orphans ih =>
    intro x hx
    rw [closedBy] at hx
    split at hx
    · exact absurd hx List.not_mem_nil
    · split at hx
      · rw [List.mem_singleton.mp hx]
        exact List.mem_cons_self
      · rcases List.mem_cons.mp hx with rfl | hx
        · exact List.mem_cons_self
        · exact List.mem_cons_of_mem _ (ih x hx)

/-- The loop over the orphans ends without failure exactly where it can update and publish each. -/
theorem closeOrphans_eq_none_iff {orphans : List AlarmEvent} :
    (closeOrphans env orphans s).2 = none ↔ ∀ e ∈ orphans,
      env.fails (.updateEvent e.ruleId) = false ∧ env.fails (.publish e.ruleId) = false := by
  induction orphans generalizing s with
  | nil => exact ⟨fun _ _ h ↦ absurd h List.not_mem_nil, fun _ ↦ rfl⟩
  | cons e orphans ih =>
    rw [List.forall_mem_cons, closeOrphans, closeOrphan]
    cases hupdate : env.fails (.updateEvent e.ruleId) with
    | true => simp
    | false =>
      cases hpublish : env.fails (.publish e.ruleId) with
      | true => simp
      | false => simpa using ih

theorem closedBy_of_ok {orphans : List AlarmEvent} (h : ∀ e ∈ orphans,
      env.fails (.updateEvent e.ruleId) = false ∧ env.fails (.publish e.ruleId) = false) :
    closedBy env orphans = orphans := by
  induction orphans with
  | nil => rfl
  | cons e orphans ih =>
    obtain ⟨⟨hupdate, hpublish⟩, hrest⟩ := List.forall_mem_cons.mp h
    rw [closedBy, hupdate, hpublish, ih hrest]
    rfl

theorem closeIn_nil (env : Env) (e : AlarmEvent) : closeIn env [] e = e := if_neg List.not_mem_nil

theorem closeIn_closeIn {id : EventId} {ids : List EventId} (h : id ∉ ids) (e : AlarmEvent) :
    closeIn env ids (closeIn env [id] e) = closeIn env (id :: ids) e := by
  by_cases hid : e.id = id
  · have hone : closeIn env [id] e = closedRow env e := if_pos (hid ▸ List.mem_singleton_self _)
    have hkept : (closedRow env e).id = id := hid
    rw [hone, closeIn, hkept, if_neg h, closeIn, if_pos (hid ▸ List.mem_cons_self)]
  · have hone : closeIn env [id] e = e := if_neg (by simpa using hid)
    rw [hone, closeIn, closeIn]
    simp only [List.mem_cons, hid, false_or]

/-- The loop over the orphans closes the rows it gets to and leaves the others. -/
theorem events_closeOrphans {orphans : List AlarmEvent}
    (hnodup : (orphans.map AlarmEvent.id).Nodup)
    (hrows : ∀ e ∈ orphans, ∀ r ∈ s.events, r.id = e.id → r = e) :
    (closeOrphans env orphans s).1.events
      = s.events.map (closeIn env ((closedBy env orphans).map AlarmEvent.id)) := by
  induction orphans generalizing s with
  | nil => exact (List.map_id'' (closeIn_nil env) s.events).symm
  | cons e orphans ih =>
    rw [List.map_cons] at hnodup
    obtain ⟨hnotin, hnodup'⟩ := List.nodup_cons.mp hnodup
    rw [closeOrphans, closeOrphan, closedBy]
    cases hupdate : env.fails (.updateEvent e.ruleId) with
    | true => exact (List.map_id'' (closeIn_nil env) s.events).symm
    | false =>
      -- the update closes the row of `e`, whether its message leaves or not
      let values : EventValues :=
        ⟨.normal, none, none, some (some (e.clearedAt.getD (env.wall (.orphan e.ruleId))))⟩
      have hself : ∀ r ∈ s.events,
          Services.rewrite e.id values r = closeIn env [e.id] r := by
        intro r hr
        by_cases hid : r.id = e.id
        · rw [hrows e List.mem_cons_self r hr hid, Services.rewrite_self, closeIn,
            if_pos (List.mem_singleton_self _)]
          rfl
        · rw [Services.rewrite_of_ne hid, closeIn, if_neg (by simpa using hid)]
      cases hpublish : env.fails (.publish e.ruleId) with
      | true => exact List.map_congr_left hself
      | false =>
        have hrows' : ∀ x ∈ orphans, ∀ r ∈ (s.updateEvent e.id values).events,
            r.id = x.id → r = x := by
          intro x hx r hr hid
          rw [Services.events_updateEvent] at hr
          obtain ⟨y, hy, rfl⟩ := List.mem_map.mp hr
          rw [Services.rewrite_id] at hid
          have hne : y.id ≠ e.id := by
            rw [hid]
            exact fun h ↦ hnotin (h ▸ List.mem_map_of_mem hx)
          rw [Services.rewrite_of_ne hne]
          exact hrows x (List.mem_cons_of_mem e hx) y hy hid
        refine (ih (s := (s.updateEvent e.id values).publish ⟨.normal, .orphan e.id .normal⟩)
          hnodup' hrows').trans ?_
        have hevents : ((s.updateEvent e.id values).publish
            ⟨.normal, .orphan e.id .normal⟩).events
              = s.events.map (Services.rewrite e.id values) := rfl
        rw [hevents, List.map_map]
        refine List.map_congr_left fun r hr ↦ ?_
        have hclosed : e.id ∉ (closedBy env orphans).map AlarmEvent.id := by
          intro h
          obtain ⟨x, hx, hxid⟩ := List.mem_map.mp h
          exact hnotin (hxid ▸ List.mem_map_of_mem (closedBy_subset env orphans x hx))
        rw [Function.comp_apply, hself r hr]
        exact closeIn_closeIn hclosed r

end Closing

/-! ## Closing twice -/

/-- The alarms a load closes because their rule is gone. -/
def closedIds (env : Env) (w : AlarmSystem) : List EventId :=
  (closedBy env (orphansOf env w)).map AlarmEvent.id

section Twice

variable {env env' : Env} {w w₁ : AlarmSystem}

theorem mem_orphansOf {e : AlarmEvent} : e ∈ orphansOf env w ↔
    e ∈ w.services.openEvents ∧ e.ruleId ∉ env.rules.val.map RuleRecord.id := by
  rw [orphansOf, List.mem_filter, decide_eq_true_iff]

theorem orphan_mem_events {e : AlarmEvent} (he : e ∈ orphansOf env w) : e ∈ w.services.events :=
  (Services.mem_openEvents.mp (mem_orphansOf.mp he).1).1

theorem nodup_orphans (hs : w.services.Sound) :
    ((orphansOf env w).map AlarmEvent.id).Nodup :=
  hs.nodup.sublist ((List.filter_sublist.trans List.filter_sublist).map _)

theorem orphan_of_closed {id : EventId} (h : id ∈ closedIds env w) :
    ∃ e ∈ orphansOf env w, e.id = id := by
  obtain ⟨e, he, hid⟩ := List.mem_map.mp h
  exact ⟨e, closedBy_subset env _ e he, hid⟩

theorem events_closing (hs : w.services.Sound) :
    (closing env w).1.events = w.services.events.map (closeIn env (closedIds env w)) :=
  events_closeOrphans (nodup_orphans hs) fun _ he _ hr hid ↦
    hs.eq_of_id (orphan_mem_events he) hr hid

theorem openEvents_closing (hs : w.services.Sound) : (closing env w).1.openEvents
    = w.services.openEvents.filter fun e ↦ decide (e.id ∉ closedIds env w) := by
  rw [Services.openEvents, Services.openEvents, events_closing hs, List.filter_map,
    List.filter_filter]
  have hopen : (fun e : AlarmEvent ↦ decide (e.state ≠ .normal)) ∘ closeIn env (closedIds env w)
      = fun e ↦ decide (e.id ∉ closedIds env w) && decide (e.state ≠ .normal) := by
    funext e
    by_cases hid : e.id ∈ closedIds env w
    · simp [closeIn, closedRow, hid]
    · simp [closeIn, hid]
  rw [hopen]
  refine (List.map_congr_left (g := id) fun e he ↦ ?_).trans (List.map_id _)
  have hid := (Bool.and_eq_true_iff.mp (List.mem_filter.mp he).2).1
  exact if_neg (of_decide_eq_true hid)

theorem find?_openEvents_closing (hs : w.services.Sound) {record : RuleRecord}
    (hrecord : record ∈ env.rules.val) :
    ((closing env w).1.openEvents.find? fun e ↦ e.ruleId = record.id)
      = w.services.openEvents.find? fun e ↦ e.ruleId = record.id := by
  rw [openEvents_closing hs, List.find?_filter]
  refine List.find?_congr fun e he ↦ ?_
  by_cases hrule : e.ruleId = record.id
  · have hnot : e.id ∉ closedIds env w := by
      intro hid
      obtain ⟨x, hx, hxid⟩ := orphan_of_closed hid
      have heq := hs.eq_of_id (orphan_mem_events hx) (Services.mem_openEvents.mp he).1 hxid.symm
      exact (mem_orphansOf.mp hx).2 (heq ▸ hrule ▸ List.mem_map_of_mem hrecord)
    simp [hrule, hnot]
  · simp [hrule]

theorem orphansOf_closing (hs : w.services.Sound) (hrules : env'.rules = env.rules)
    (hw₁ : w₁.services = (closing env w).1) :
    orphansOf env' w₁ = (orphansOf env w).filter fun e ↦ decide (e.id ∉ closedIds env w) := by
  rw [orphansOf, orphansOf, hw₁, openEvents_closing hs, hrules, List.filter_filter,
    List.filter_filter]
  exact List.filter_congr fun e _ ↦ Bool.and_comm _ _

theorem events_closing_again (hs : w.services.Sound) (hrules : env'.rules = env.rules)
    (hclose : (closing env' w).2 = none) (hw₁ : w₁.services = (closing env w).1) :
    (closing env' w₁).2 = none ∧ (closing env' w₁).1.events = w.services.events.map fun e ↦
      if e.id ∈ closedIds env w then closedRow env e
      else closeIn env' (closedIds env' w) e := by
  have horphans := orphansOf_closing hs hrules hw₁
  have hsame : orphansOf env' w = orphansOf env w := by rw [orphansOf, orphansOf, hrules]
  have hok := closeOrphans_eq_none_iff.mp hclose
  have hok' : ∀ e ∈ orphansOf env' w₁,
      env'.fails (.updateEvent e.ruleId) = false ∧ env'.fails (.publish e.ruleId) = false := by
    intro e he
    rw [horphans] at he
    exact hok e (hsame ▸ (List.mem_filter.mp he).1)
  refine ⟨closeOrphans_eq_none_iff.mpr hok', ?_⟩
  have hall : closedIds env' w = (orphansOf env w).map AlarmEvent.id := by
    rw [closedIds, closedBy_of_ok hok, hsame]
  have hclosed : closedBy env' (orphansOf env' w₁)
      = (orphansOf env w).filter fun e ↦ decide (e.id ∉ closedIds env w) := by
    rw [closedBy_of_ok hok', horphans]
  have hevents : w₁.services.events = w.services.events.map (closeIn env (closedIds env w)) := by
    rw [hw₁, events_closing hs]
  -- the rows of the orphans that are left are those of the table before the failed load
  have hrows : ∀ e ∈ orphansOf env' w₁, ∀ r ∈ w₁.services.events, r.id = e.id → r = e := by
    intro e he r hr hid
    rw [horphans] at he
    obtain ⟨he, hnot⟩ := List.mem_filter.mp he
    rw [hevents] at hr
    obtain ⟨y, hy, rfl⟩ := List.mem_map.mp hr
    have hyid : y.id = e.id := by
      rw [closeIn] at hid
      split at hid <;> exact hid
    have hye := hs.eq_of_id (orphan_mem_events he) hy hyid
    rw [hye]
    exact if_neg (of_decide_eq_true hnot)
  have hnodup : ((orphansOf env' w₁).map AlarmEvent.id).Nodup := by
    rw [horphans]
    exact (nodup_orphans hs).sublist (List.filter_sublist.map _)
  rw [closing, events_closeOrphans hnodup hrows, hclosed, hevents, List.map_map]
  refine List.map_congr_left fun e _ ↦ ?_
  rw [Function.comp_apply, hall]
  by_cases hid : e.id ∈ closedIds env w
  · rw [if_pos hid]
    have hone : closeIn env (closedIds env w) e = closedRow env e := if_pos hid
    have hkept : (closedRow env e).id = e.id := rfl
    rw [hone, closeIn, if_neg]
    rw [hkept]
    intro hmem
    obtain ⟨x, hx, hxid⟩ := List.mem_map.mp hmem
    exact of_decide_eq_true (List.mem_filter.mp hx).2 (hxid ▸ hid)
  · rw [if_neg hid]
    have hone : closeIn env (closedIds env w) e = e := if_neg hid
    rw [hone, closeIn, closeIn]
    congr 1
    refine propext ⟨?_, ?_⟩
    · intro hmem
      obtain ⟨x, hx, hxid⟩ := List.mem_map.mp hmem
      exact List.mem_map.mpr ⟨x, (List.mem_filter.mp hx).1, hxid⟩
    · intro hmem
      obtain ⟨x, hx, hxid⟩ := List.mem_map.mp hmem
      exact List.mem_map.mpr ⟨x, List.mem_filter.mpr ⟨hx, decide_eq_true (hxid ▸ hid)⟩, hxid⟩

end Twice

/-! ## The next load -/

/-- What a load is judged by, of one rule: its record, its condition, the instant of its last value,
the state of its machine and its alarm. -/
def RuleRuntime.summary (rt : RuleRuntime) : Standing × AlarmState × Option EventId :=
  (rt.standing, rt.machine.state, rt.eventId)

/-- After the failed load of `env`, the load of `env'` succeeds and leaves the rules and the table
as it would have without the failed one. -/
structure Harmless (env env' : Env) (w : AlarmSystem) : Prop where
  succeeds : (load env' (load env w).1).2 = none
  rules : ∀ rule, ((load env' (load env w).1).1.engine.find? rule).map RuleRuntime.summary
    = ((load env' w).1.engine.find? rule).map RuleRuntime.summary
  events : ∀ id, (load env' (load env w).1).1.services.row id = (load env' w).1.services.row id

/-- What a load that fails leaves behind makes no difference: an alarm it has closed had an end
already, or would have been given the same one; and where it fails after the rules are installed, a
new rule has nothing to evaluate. -/
def LeavesNoTrace (env env' : Env) (w : AlarmSystem) : Prop :=
  env.fails .loadRules = false → env.fails .openEvents = false →
    (∀ e ∈ closedBy env (orphansOf env w), e.clearedAt = none →
      env.wall (.orphan e.ruleId) = env'.wall (.orphan e.ruleId)) ∧
    ((∀ e ∈ orphansOf env w, env.fails (.updateEvent e.ruleId) = false ∧
        env.fails (.publish e.ruleId) = false) →
      ∀ record ∈ env.rules.val, w.engine.find? record.id = none →
        (Standing.restored env' w.services record).evaluateInitial env'
          = .restored env w.services record)

section Next

variable {env env' : Env} {w w₁ : AlarmSystem}

theorem load_of_closing (hrules : env.fails .loadRules = false)
    (hevents : env.fails .openEvents = false) (hclose : (closing env w).2 = none) :
    load env w = initialEvaluation env (freshRules env w)
      ⟨installed env w, (closing env w).1⟩ := by
  cases hclosing : closing env w with
  | mk s failure =>
    rw [hclosing] at hclose
    dsimp only at hclose
    subst hclose
    rw [load, hrules, hevents]
    rw [closing, orphansOf] at hclosing
    simp only [Bool.false_eq_true, if_false, hclosing]
    rfl

theorem ok_of_load (h : (load env w).2 = none) :
    env.fails .loadRules = false ∧ env.fails .openEvents = false ∧ (closing env w).2 = none := by
  have hloads := loads_load env w
  rw [h] at hloads
  generalize (load env w).1 = w' at hloads
  cases hloads with
  | done hrules hevents hclose => exact ⟨hrules, hevents, hclose⟩

theorem initialEvaluation_of_eq_none {fresh : List RuleId}
    (h : (initialEvaluation env fresh w).2 = none) (w' : AlarmSystem) :
    initialEvaluation env fresh w' = (w'.forEach fresh (evaluateInitial env), none) := by
  unfold initialEvaluation at h ⊢
  split
  · rename_i hfresh
    rw [hfresh]
    rfl
  · rename_i hfresh
    rw [if_neg hfresh] at h
    split
    · rename_i hlatest
      rw [if_pos hlatest] at h
      cases h
    · rename_i hlatest
      rw [if_neg hlatest] at h
      split
      · rename_i honline
        rw [if_pos honline] at h
        cases h
      · rfl

/-- The load of `env'`, from a system in which the same rules are new. -/
theorem load_next (hnext : (load env' w).2 = none) (hclose : (closing env' w₁).2 = none)
    (hfresh : freshRules env' w₁ = freshRules env' w) :
    load env' w₁ = (AlarmSystem.forEach (freshRules env' w) (evaluateInitial env')
      ⟨installed env' w₁, (closing env' w₁).1⟩, none) := by
  obtain ⟨hrules, hevents, hclosew⟩ := ok_of_load hnext
  rw [load_of_closing hrules hevents hclose, hfresh]
  rw [load_of_closing hrules hevents hclosew] at hnext
  exact initialEvaluation_of_eq_none hnext _

theorem refresh_refresh (records : List RuleRecord) (rt : RuleRuntime) :
    refresh records (refresh records rt) = refresh records rt := by
  have hid := record_id_refresh records rt
  rw [refresh, hid, refresh]
  cases h : records.find? fun record ↦ record.id = rt.record.id with
  | none => rfl
  | some record => rfl

theorem runtimeOf_congr {known : List RuleRuntime} {events events' : List AlarmEvent}
    {record : RuleRecord} (h : (events.find? fun e ↦ e.ruleId = record.id)
      = events'.find? fun e ↦ e.ruleId = record.id) :
    runtimeOf env known events record = runtimeOf env known events' record := by
  rw [runtimeOf, runtimeOf, h]

theorem row_closed (hs : w.services.Sound) (hclose : (closing env' w).2 = none)
    (hsame : env'.rules = env.rules) (hw₁ : w₁.services = (closing env w).1) {e : AlarmEvent}
    (he : e ∈ closedBy env (orphansOf env w)) :
    (closing env' w₁).1.row e.id = some (closedRow env e) ∧
      (closing env' w).1.row e.id = some (closedRow env' e) := by
  have horphan := closedBy_subset env _ e he
  have hmem := orphan_mem_events horphan
  have hfind : (w.services.events.find? fun x ↦ x.id = e.id) = some e := hs.find?_eq hmem
  have hclosed : e.id ∈ closedIds env w := List.mem_map_of_mem he
  have hclosed' : e.id ∈ closedIds env' w := by
    rw [closedIds, closedBy_of_ok (closeOrphans_eq_none_iff.mp hclose), orphansOf, hsame,
      ← orphansOf]
    exact List.mem_map_of_mem horphan
  refine ⟨?_, ?_⟩
  · rw [Services.row, (events_closing_again hs hsame hclose hw₁).2, List.find?_map]
    have hids : ((fun x : AlarmEvent ↦ decide (x.id = e.id)) ∘ fun x ↦
        if x.id ∈ closedIds env w then closedRow env x else closeIn env' (closedIds env' w) x)
        = fun x ↦ decide (x.id = e.id) := by
      funext x
      rw [Function.comp_apply, closeIn]
      split
      · rfl
      · split <;> rfl
    rw [hids, hfind, Option.map_some, if_pos hclosed]
  · rw [Services.row, events_closing hs, List.find?_map]
    have hids : ((fun x : AlarmEvent ↦ decide (x.id = e.id)) ∘ closeIn env' (closedIds env' w))
        = fun x ↦ decide (x.id = e.id) := by
      funext x
      rw [Function.comp_apply, closeIn]
      split <;> rfl
    rw [hids, hfind, Option.map_some, closeIn, if_pos hclosed']

/-- Where the ends given to the alarms agree, the two loads leave the same rows. -/
theorem events_closing_eq (hs : w.services.Sound) (hclose : (closing env' w).2 = none)
    (hsame : env'.rules = env.rules) (hw₁ : w₁.services = (closing env w).1)
    (h : ∀ e ∈ closedBy env (orphansOf env w), e.clearedAt = none →
      env.wall (.orphan e.ruleId) = env'.wall (.orphan e.ruleId)) :
    (closing env' w₁).1.events = (closing env' w).1.events := by
  rw [(events_closing_again hs hsame hclose hw₁).2, events_closing hs]
  refine List.map_congr_left fun e he ↦ ?_
  by_cases hid : e.id ∈ closedIds env w
  · obtain ⟨x, hx, hxid⟩ := List.mem_map.mp hid
    have heq := hs.eq_of_id (orphan_mem_events (closedBy_subset env _ x hx)) he hxid.symm
    subst heq
    have hclosed' : e.id ∈ closedIds env' w := by
      rw [closedIds, closedBy_of_ok (closeOrphans_eq_none_iff.mp hclose), orphansOf, hsame,
        ← orphansOf]
      exact List.mem_map_of_mem (closedBy_subset env _ e hx)
    rw [if_pos hid, closeIn, if_pos hclosed', closedRow, closedRow]
    cases hcleared : e.clearedAt with
    | none => rw [h e hx hcleared]
    | some instant => rfl
  · rw [if_neg hid]

theorem find?_installed_new {record : RuleRecord} (hrecord : record ∈ env.rules.val)
    (hnew : w.engine.find? record.id = none) :
    (installed env w).find? record.id
      = some (restore env record (w.services.openEvents.find? fun e ↦ e.ruleId = record.id)) := by
  rw [find?_installed, find?_record hrecord, Option.map_some, runtimeOf, find?_known, hnew]
  rfl

theorem find?_installed_fresh (hsame : env'.rules = env.rules) :
    ∀ rule ∈ freshRules env' w, ∃ record ∈ env.rules.val, record.id = rule ∧
      (installed env' w).find? rule
        = some (restore env' record (w.services.openEvents.find? fun e ↦ e.ruleId = rule)) := by
  intro rule hrule
  obtain ⟨hmem, hnew⟩ := mem_freshRules.mp hrule
  obtain ⟨record, hrecord, rfl⟩ := List.mem_map.mp hmem
  exact ⟨record, hsame ▸ hrecord, rfl, find?_installed_new hrecord hnew⟩

/-- A rule that is not new is installed in the same way by both loads. -/
theorem find?_installed_of_not_fresh (hsame : env'.rules = env.rules) {rule : RuleId}
    (h : rule ∉ freshRules env' w) :
    (installed env' w).find? rule = (installed env w).find? rule := by
  rw [find?_installed, find?_installed, hsame]
  refine Option.map_congr fun record hrecord ↦ ?_
  have hid : record.id = rule := by simpa using List.find?_some hrecord
  have hmem : rule ∈ env'.rules.val.map RuleRecord.id :=
    hsame ▸ hid ▸ List.mem_map_of_mem (List.mem_of_find?_eq_some hrecord)
  obtain ⟨rt, hknown⟩ := Option.ne_none_iff_exists'.mp fun hnew ↦
    h (mem_freshRules.mpr ⟨hmem, hnew⟩)
  rw [runtimeOf, runtimeOf, hid, find?_known, hknown]
  rfl

/-- The evaluation of the new rules leaves the rows of the alarms closed. -/
theorem row_evaluated (hs : w.services.Sound) (engine : AlarmEngine) {rules : List RuleId}
    (hnodup : rules.Nodup)
    (hengine : ∀ rule ∈ rules, ∃ record ∈ env.rules.val, record.id = rule ∧
      engine.find? rule
        = some (restore env' record (w.services.openEvents.find? fun e ↦ e.ruleId = rule)))
    {e : AlarmEvent} (he : e ∈ orphansOf env w) {s : Services} (hrow : (s.row e.id).isSome = true) :
    (AlarmSystem.forEach rules (evaluateInitial env') ⟨engine, s⟩).services.row e.id
      = s.row e.id := by
  refine ((acts_evaluateInitial env').forEach_keeps (fun s' ↦ s'.row e.id = s.row e.id) hnodup
    (w := ⟨engine, s⟩) ?_ rfl).1
  intro rule hrule rt hfind s' hs'
  obtain ⟨record, hrecord, hid, hrestored⟩ := hengine rule hrule
  have hrt : rt = restore env' record
      (w.services.openEvents.find? fun e ↦ e.ruleId = rule) :=
    Option.some.inj (hfind.symm.trans hrestored)
  have hother : rt.eventId ≠ some e.id := by
    rw [hrt]
    cases hopen : w.services.openEvents.find? fun e ↦ e.ruleId = rule with
    | none => exact fun h ↦ nomatch h
    | some x =>
      intro h
      have hx := List.mem_of_find?_eq_some hopen
      have hxrule : x.ruleId = rule := by simpa using List.find?_some hopen
      have heq := hs.eq_of_id (Services.mem_openEvents.mp hx).1 (orphan_mem_events he)
        (Option.some.inj h).symm
      rw [← heq, ← hid] at hxrule
      exact (mem_orphansOf.mp he).2 (hxrule ▸ List.mem_map_of_mem hrecord)
  exact (row_evaluateInitial env' (x := ⟨rt, s'⟩) hother (by rw [hs']; exact hrow)).trans hs'

/-- After a load that failed on an orphan, the same rules are new and are installed the same. -/
theorem installed_refreshed (hs : w.services.Sound) (hsame : env'.rules = env.rules) :
    freshRules env' ⟨refreshed env w, (closing env w).1⟩ = freshRules env' w ∧
      installed env' ⟨refreshed env w, (closing env w).1⟩ = installed env' w := by
  refine ⟨?_, ?_⟩
  · rw [freshRules, freshRules, ids_refresh, refreshed, ids_refresh, ids_refresh]
  · rw [installed, installed, refreshed]
    dsimp only
    have hrefresh : refresh env.rules.val ∘ refresh env.rules.val = refresh env.rules.val :=
      funext (refresh_refresh env.rules.val)
    rw [hsame, List.map_map, hrefresh]
    congr 1
    refine List.map_congr_left fun record hrecord ↦ ?_
    exact runtimeOf_congr (find?_openEvents_closing hs hrecord)

/-- A load that failed on an orphan is harmless exactly where the ends given to the alarms agree. -/
theorem harmless_unclosed_iff (hs : w.services.Sound) (hsame : env'.rules = env.rules)
    (hnext : (load env' w).2 = none)
    (hload : (load env w).1 = ⟨refreshed env w, (closing env w).1⟩) :
    Harmless env env' w ↔ ∀ e ∈ closedBy env (orphansOf env w), e.clearedAt = none →
      env.wall (.orphan e.ruleId) = env'.wall (.orphan e.ruleId) := by
  obtain ⟨hrules', hevents', hclose⟩ := ok_of_load hnext
  obtain ⟨hfresh, hinstalled⟩ := installed_refreshed hs hsame
  have hagain := events_closing_again hs hsame hclose (congrArg AlarmSystem.services hload)
  have hfirst : load env' (load env w).1 = _ := load_next hnext hagain.1 (hload ▸ hfresh)
  have hinst : installed env' (load env w).1 = installed env' w := hload ▸ hinstalled
  rw [hinst] at hfirst
  have hsecond := load_next hnext hclose rfl
  refine ⟨fun h e he hcleared ↦ ?_, fun h ↦ ?_⟩
  · -- the row of an alarm the failed load has closed is not written any more
    have horphan := closedBy_subset env _ e he
    obtain ⟨hrow, hrow'⟩ := row_closed hs hclose hsame (congrArg AlarmSystem.services hload) he
    have hengine := find?_installed_fresh (w := w) hsame
    have hevents := h.events e.id
    rw [hfirst, hsecond, row_evaluated hs _ (nodup_freshRules env' w) hengine horphan
        (by rw [hrow]; rfl), row_evaluated hs _ (nodup_freshRules env' w) hengine horphan
        (by rw [hrow']; rfl), hrow, hrow', Option.some.injEq] at hevents
    have hend := congrArg AlarmEvent.clearedAt hevents
    simpa [closedRow, hcleared] using hend
  · have hevents := events_closing_eq hs hclose hsame (congrArg AlarmSystem.services hload) h
    have halike : ∀ {x y}, Scope.Alike x y →
        (evaluateInitial env' x).Alike (evaluateInitial env' y) := alike_evaluateInitial
    have hengines : (⟨installed env' w, (closing env' (load env w).1).1⟩ : AlarmSystem).engine
      = (⟨installed env' w, (closing env' w).1⟩ : AlarmSystem).engine := rfl
    obtain ⟨hengine, hrows⟩ := forEach_congr halike (freshRules env' w) hengines hevents
    refine ⟨by rw [hfirst], fun rule ↦ ?_, fun id ↦ ?_⟩
    · rw [hfirst, hsecond, hengine]
    · rw [hfirst, hsecond, Services.row, Services.row, hrows]

theorem installed_installed (hsame : env'.rules = env.rules) (s : Services) :
    freshRules env' ⟨installed env w, s⟩ = [] ∧
      installed env' ⟨installed env w, s⟩ = installed env w := by
  have hrefresh : ∀ record ∈ env.rules.val, refresh env.rules.val
      (runtimeOf env (w.engine.rules.map (refresh env.rules.val)) w.services.openEvents record)
        = runtimeOf env (w.engine.rules.map (refresh env.rules.val)) w.services.openEvents
          record := by
    intro record hrecord
    rw [runtimeOf, find?_known]
    cases hknown : w.engine.find? record.id with
    -- a rule that is kept has been refreshed already, a new one is built from its record
    | some rt => exact refresh_refresh _ _
    | none =>
      have hid : ∀ event, (restore env record event).record = record ∧
          (restore env record event).machine.delayS = record.delayS := by
        intro event
        cases event <;> exact ⟨rfl, rfl⟩
      obtain ⟨hrecord', hdelay⟩ :=
        hid (w.services.openEvents.find? fun e ↦ e.ruleId = record.id)
      dsimp only [Option.map_none]
      generalize restore env record (w.services.openEvents.find? fun e ↦ e.ruleId = record.id)
        = rt at hrecord' hdelay
      obtain ⟨r, ⟨d, st, p⟩, c, i, a, b, x, y, v, u, l⟩ := rt
      dsimp only at hrecord' hdelay
      subst hrecord' hdelay
      rw [refresh, find?_record hrecord]
  refine ⟨?_, ?_⟩
  · rw [freshRules, ids_refresh, installed, AlarmEngine.index, ids_runtimeOf, hsame,
      List.filter_eq_nil_iff]
    intro rule hrule hnot
    exact of_decide_eq_true hnot hrule
  · rw [installed, hsame]
    have hrules : (installed env w).rules.map (refresh env.rules.val)
        = (installed env w).rules := by
      refine (List.map_congr_left (g := id) fun rt hrt ↦ ?_).trans (List.map_id _)
      obtain ⟨record, hrecord, rfl⟩ := List.mem_map.mp hrt
      exact hrefresh record hrecord
    dsimp only
    rw [hrules, installed, AlarmEngine.index, AlarmEngine.index]
    have hsame' : env.rules.val.map (runtimeOf env' (env.rules.val.map (runtimeOf env
        (w.engine.rules.map (refresh env.rules.val)) w.services.openEvents)) s.openEvents)
        = env.rules.val.map (runtimeOf env (w.engine.rules.map (refresh env.rules.val))
          w.services.openEvents) := by
      refine List.map_congr_left fun record hrecord ↦ ?_
      have hfind := find?_installed env w record.id
      rw [AlarmEngine.find?, installed, AlarmEngine.index, find?_record hrecord] at hfind
      dsimp only at hfind
      rw [runtimeOf, hfind]
      rfl
    rw [hsame']

/-- What the next load makes of a new rule, where it is new for it too. -/
theorem summary_evaluated (hs : w.services.Sound) {record : RuleRecord} {s : Services}
    (h : (Standing.restored env' w.services record).evaluateInitial env'
      = .restored env w.services record) :
    let rt := restore env' record (w.services.openEvents.find? fun e ↦ e.ruleId = record.id)
    (evaluateInitial env' ⟨rt, s⟩).services = s ∧
      (evaluateInitial env' ⟨rt, s⟩).runtime.summary = (restore env record
        (w.services.openEvents.find? fun e ↦ e.ruleId = record.id)).summary := by
  have hrestored := restored_restore hs env' record
  have hpending := hs.restoredState_ne_pending record.id
  have hstanding := standing_restore env' w.services record
  have hcondition : ((restore env' record (w.services.openEvents.find?
      fun e ↦ e.ruleId = record.id)).standing.evaluateInitial env').condition
        = (restore env' record (w.services.openEvents.find?
          fun e ↦ e.ruleId = record.id)).condition := by
    rw [hstanding, h, hrestored.condition]
    rfl
  obtain ⟨hservices, hmachine, hevent⟩ := evaluateInitial_unchanged env'
    (by rw [hrestored.machine, hrestored.condition, AlarmMachine.holds_eq_isActive hpending])
    (by rw [hrestored.machine]; exact hpending) hcondition s
  refine ⟨hservices, ?_⟩
  have hnew := (acts_evaluateInitial env').standing ⟨restore env' record
    (w.services.openEvents.find? fun e ↦ e.ruleId = record.id), s⟩
  dsimp only at hnew
  rw [hstanding, h, ← standing_restore] at hnew
  rw [RuleRuntime.summary, RuleRuntime.summary, hnew, hmachine, hevent, hrestored.machine,
    (restored_restore hs env record).machine]
  cases w.services.openEvents.find? fun e ↦ e.ruleId = record.id <;> rfl

/-- After a load that has installed the rules, the next one only closes the orphans left. -/
theorem load_installed (hs : w.services.Sound) (hsame : env'.rules = env.rules)
    (hnext : (load env' w).2 = none)
    (hload : (load env w).1 = ⟨installed env w, (closing env w).1⟩) :
    load env' (load env w).1 = (⟨installed env w, (closing env' (load env w).1).1⟩, none) := by
  obtain ⟨hrules', hevents', hclose⟩ := ok_of_load hnext
  have hclose₁ := (events_closing_again hs hsame hclose (congrArg AlarmSystem.services hload)).1
  obtain ⟨hnone, hinstalled⟩ := installed_installed (w := w) hsame (closing env w).1
  rw [hload] at hclose₁ ⊢
  rw [load_of_closing hrules' hevents' hclose₁, hnone, hinstalled]
  rfl

/-- **Where the new rules have nothing to evaluate**, their evaluation writes nothing and leaves
what the other load has restored. -/
theorem evaluated_restored (hs : w.services.Sound) (hsame : env'.rules = env.rules)
    (heval : ∀ record ∈ env.rules.val, w.engine.find? record.id = none →
      (Standing.restored env' w.services record).evaluateInitial env'
        = .restored env w.services record) (s : Services) :
    ((⟨installed env' w, s⟩ : AlarmSystem).forEach (freshRules env' w)
        (evaluateInitial env')).services.events = s.events ∧
    ∀ rule, (((⟨installed env' w, s⟩ : AlarmSystem).forEach (freshRules env' w)
        (evaluateInitial env')).engine.find? rule).map RuleRuntime.summary
      = ((installed env w).find? rule).map RuleRuntime.summary := by
  have hfreshes := find?_installed_fresh (w := w) hsame
  obtain ⟨hkept, hturns⟩ := (acts_evaluateInitial env').forEach_keeps
    (fun s' ↦ s'.events = s.events) (nodup_freshRules env' w)
    (w := ⟨installed env' w, s⟩) (by
      intro rule hrule rt hfind s' hs'
      obtain ⟨record, hrecord, rfl, hrestored⟩ := hfreshes rule hrule
      rw [hfind, Option.some.injEq] at hrestored
      have hnew := (mem_freshRules.mp hrule).2
      rw [hrestored, (summary_evaluated hs (heval record hrecord hnew)).1]
      exact hs') rfl
  refine ⟨hkept, fun rule ↦ ?_⟩
  by_cases hrule : rule ∈ freshRules env' w
  · obtain ⟨record, hrecord, rfl, hrestored⟩ := hfreshes rule hrule
    obtain ⟨s', -, hturn⟩ := hturns record.id hrule _ hrestored
    have hnew := (mem_freshRules.mp hrule).2
    rw [hturn, find?_installed_new hrecord hnew, Option.map_some, Option.map_some,
      (summary_evaluated hs (heval record hrecord hnew)).2]
  · rw [(acts_evaluateInitial env').find?_forEach_of_not_mem _ hrule]
    dsimp only
    rw [find?_installed_of_not_fresh hsame hrule]

/-- What the two loads leave agrees only where a new rule has nothing to evaluate. -/
theorem evaluateInitial_of_standing (hsame : env'.rules = env.rules) {s : Services}
    {record : RuleRecord} (hrecord : record ∈ env.rules.val)
    (hnew : w.engine.find? record.id = none)
    (h : (installed env w).standing record.id = ((⟨installed env' w, s⟩ : AlarmSystem).forEach
      (freshRules env' w) (evaluateInitial env')).engine.standing record.id) :
    (Standing.restored env' w.services record).evaluateInitial env'
      = .restored env w.services record := by
  have hfresh : record.id ∈ freshRules env' w :=
    mem_freshRules.mpr ⟨hsame ▸ List.mem_map_of_mem hrecord, hnew⟩
  have hrecord' : record ∈ env'.rules.val := hsame ▸ hrecord
  have hfind' := find?_installed_new hrecord' hnew
  rw [(acts_evaluateInitial env').standing_forEach _ (nodup_freshRules env' w), if_pos hfresh,
    AlarmEngine.standing, AlarmEngine.standing, find?_installed_new hrecord hnew, hfind',
    Option.map_some, Option.map_some, Option.map_some, Option.some.injEq, standing_restore,
    standing_restore] at h
  exact h.symm

/-- A load that failed with the rules installed is harmless exactly where, besides, the new rules
have nothing to evaluate. -/
theorem harmless_unevaluated_iff (hs : w.services.Sound) (hsame : env'.rules = env.rules)
    (hnext : (load env' w).2 = none)
    (hload : (load env w).1 = ⟨installed env w, (closing env w).1⟩) :
    Harmless env env' w ↔
      (∀ e ∈ closedBy env (orphansOf env w), e.clearedAt = none →
        env.wall (.orphan e.ruleId) = env'.wall (.orphan e.ruleId)) ∧
      ∀ record ∈ env.rules.val, w.engine.find? record.id = none →
        (Standing.restored env' w.services record).evaluateInitial env'
          = .restored env w.services record := by
  obtain ⟨-, -, hclose⟩ := ok_of_load hnext
  have hservices := congrArg AlarmSystem.services hload
  have hfirst := load_installed hs hsame hnext hload
  have hsecond := load_next hnext hclose rfl
  refine ⟨fun h ↦ ⟨fun e he hcleared ↦ ?_, fun record hrecord hnew ↦ ?_⟩, fun h ↦ ?_⟩
  · -- the row of an alarm the failed load has closed is not written any more
    have horphan := closedBy_subset env _ e he
    obtain ⟨hrow, hrow'⟩ := row_closed hs hclose hsame hservices he
    have hevents := h.events e.id
    rw [hfirst, hsecond, row_evaluated hs _ (nodup_freshRules env' w)
        (find?_installed_fresh hsame) horphan (by rw [hrow']; rfl), hrow, hrow',
      Option.some.injEq] at hevents
    have hend := congrArg AlarmEvent.clearedAt hevents
    simpa [closedRow, hcleared] using hend
  · have hrules := congrArg (Option.map Prod.fst) (h.rules record.id)
    rw [hfirst, hsecond, Option.map_map, Option.map_map] at hrules
    exact evaluateInitial_of_standing hsame hrecord hnew hrules
  · obtain ⟨hends, heval⟩ := h
    have hevents := events_closing_eq hs hclose hsame hservices hends
    obtain ⟨hkept, hrules⟩ := evaluated_restored hs hsame heval (closing env' w).1
    refine ⟨by rw [hfirst], fun rule ↦ ?_, fun id ↦ ?_⟩
    · rw [hfirst, hsecond]
      exact (hrules rule).symm
    · rw [hfirst, hsecond, Services.row, Services.row, hkept, hevents]

end Next

/-- **A failed load is harmless** exactly where it leaves no trace. -/
theorem failed_load_harmless_iff {env env' : Env} {w : AlarmSystem} (hs : w.services.Sound)
    (hsame : env'.rules = env.rules) (hfailed : (load env w).2 ≠ none)
    (hnext : (load env' w).2 = none) : Harmless env env' w ↔ LeavesNoTrace env env' w := by
  have hloads := loads_load env w
  generalize hsystem : (load env w).1 = w₁ at hloads
  generalize hfailure : (load env w).2 = failure at hloads hfailed
  cases hloads with
  | unread h =>
    refine ⟨fun _ hrules hevents ↦ ?_, fun _ ↦ ?_⟩
    · rcases h with h | h
      · rw [hrules] at h
        cases h
      · rw [hevents] at h
        cases h
    · exact ⟨by rw [hsystem]; exact hnext, fun _ ↦ by rw [hsystem], fun _ ↦ by rw [hsystem]⟩
  | unclosed hrules hevents h =>
    rw [harmless_unclosed_iff hs hsame hnext hsystem]
    refine ⟨fun hends _ _ ↦ ⟨hends, fun hok ↦ ?_⟩, fun htrace ↦ (htrace hrules hevents).1⟩
    rw [closing, closeOrphans_eq_none_iff.mpr hok] at h
    cases h
  | unevaluated hrules hevents hclose _ =>
    rw [harmless_unevaluated_iff hs hsame hnext hsystem]
    have hok := closeOrphans_eq_none_iff.mp hclose
    exact ⟨fun ⟨hends, heval⟩ _ _ ↦ ⟨hends, fun _ ↦ heval⟩, fun htrace ↦
      ⟨(htrace hrules hevents).1, (htrace hrules hevents).2 hok⟩⟩
  | done => exact absurd rfl hfailed

/-! ### Two reloads -/

theorem nodup_lostRules : ([lostRule, lostRule'].map RuleRecord.id).Nodup := by decide

/-- Two alarms raised, and then both of their rules disabled. -/
def twoAlarms : AlarmSystem :=
  step (failing [])
    (step (enabling ⟨[lostRule, lostRule'], nodup_lostRules⟩ []) ⟨.empty, .empty⟩ .load)
    (.onDeviceStatus 7 false)

theorem sound_twoAlarms : twoAlarms.services.Sound := by
  have hempty := consistent_empty Services.sound_empty
  have hdelivers : (failing []).Delivers := failing_delivers (by decide)
  have horderly : Orderly (enabling ⟨[lostRule, lostRule'], nodup_lostRules⟩ []) .load
      ⟨.empty, .empty⟩ :=
    ⟨hdelivers, fun _ _ _ hfails ↦ absurd hfails (by simp [enabling, failing])⟩
  have horderly' : ∀ w, Orderly (failing []) (.onDeviceStatus 7 false) w := fun _ ↦
    ⟨hdelivers, by simp⟩
  exact ((hempty.step horderly).step (horderly' _)).sound

/-- The reload closes the first alarm and fails on the second; the next one closes the second. -/
theorem harmless_twoAlarms :
    (load (enabling ⟨[], List.nodup_nil⟩ [.updateEvent 2]) twoAlarms).2
        = some (.unavailable (.updateEvent 2)) ∧
      Harmless (enabling ⟨[], List.nodup_nil⟩ [.updateEvent 2])
        (enabling ⟨[], List.nodup_nil⟩ []) twoAlarms := by
  have hfailed : (load (enabling ⟨[], List.nodup_nil⟩ [.updateEvent 2]) twoAlarms).2
      = some (.unavailable (.updateEvent 2)) := by decide +kernel
  have hnext : (load (enabling ⟨[], List.nodup_nil⟩ []) twoAlarms).2 = none := by decide +kernel
  have hsame : (enabling ⟨[], List.nodup_nil⟩ []).rules
      = (enabling ⟨[], List.nodup_nil⟩ [.updateEvent 2]).rules := rfl
  have hne : (load (enabling ⟨[], List.nodup_nil⟩ [.updateEvent 2]) twoAlarms).2 ≠ none := by
    rw [hfailed]
    exact fun h ↦ nomatch h
  refine ⟨hfailed, (failed_load_harmless_iff sound_twoAlarms hsame hne hnext).mpr ?_⟩
  exact fun _ _ ↦ ⟨fun _ _ _ ↦ rfl, fun _ _ hrecord ↦ absurd hrecord List.not_mem_nil⟩

/-- The devices cannot be read when a new rule is loaded: it is never evaluated. -/
theorem failed_load_not_harmless : ¬ ∀ (env env' : Env) (w : AlarmSystem), w.services.Sound →
    env'.rules = env.rules → env'.latest = env.latest → env'.online = env.online →
    (load env w).2 ≠ none → (load env' w).2 = none → Harmless env env' w := by
  intro h
  have hrules := (h { thresholdEnv 0 10 with fails := fun call ↦ decide (call = .devicesOnline) }
    (thresholdEnv 0 10) ⟨.empty, .empty⟩ Services.sound_empty rfl rfl rfl
    (by decide) (by decide)).rules 1
  have hcondition := congrArg (Option.map fun summary ↦ summary.1.condition) hrules
  rw [Option.map_map, Option.map_map] at hcondition
  exact absurd hcondition (by decide +kernel)

end Superviseur
