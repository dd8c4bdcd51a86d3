import Mathlib.Data.List.Dedup
import Mathlib.Data.List.Induction
import Superviseur.Api.Realtime

/-!
# The points of a connection

A request for points is granted or refused as a whole: it is refused when it would bring the
connection over its limit. The points a connection ends up with, once it has served its requests,
are those of the requests granted one after the other; and these are the channels Redis has for it.
-/

/-- The batches are granted in order, each as a whole, as long as the limit allows it. -/
def grant (limit : ℕ) : (points : List ℕ) → List (List ℕ) → List ℕ
  | points, [] => points
  | points, batch :: batches =>
    let new := batch.dedup.filter fun id ↦ id ∉ points
    if limit < points.length + new.length then grant limit points batches
    else grant limit (points ++ new) batches

section

variable {limit : ℕ} {points batch : List ℕ} {batches : List (List ℕ)} {id : ℕ}

theorem mem_grant_of_mem (h : id ∈ points) : id ∈ grant limit points batches := by
  induction batches generalizing points with
  | nil => exact h
  | cons batch batches ih =>
    rw [grant]
    split
    · exact ih h
    · exact ih (List.mem_append_left _ h)

theorem grant_cons_of_new (hbatch : batch.Nodup) (hnew : ∀ id ∈ batch, id ∉ points) :
    grant limit points (batch :: batches) =
      if limit < points.length + batch.length then grant limit points batches
      else grant limit (points ++ batch) batches := by
  rw [grant, hbatch.dedup, List.filter_eq_self.mpr fun id hid ↦ decide_eq_true (hnew id hid)]

/-- As long as all the batches together keep the limit, they are all granted. -/
theorem mem_grant_of_le (hlimit : points.length + batches.flatten.length ≤ limit)
    (h : id ∈ batches.flatten) : id ∈ grant limit points batches := by
  induction batches generalizing points with
  | nil => nomatch h
  | cons batch batches ih =>
    have hnew : (batch.dedup.filter fun id ↦ id ∉ points).length ≤ batch.length :=
      (List.length_filter_le _ _).trans (List.dedup_sublist batch).length_le
    rw [List.flatten_cons, List.length_append] at hlimit
    rw [grant, if_neg (by omega)]
    rcases List.mem_append.mp (List.flatten_cons ▸ h) with hbatch | hbatches
    · refine mem_grant_of_mem ?_
      by_cases hid : id ∈ points
      · exact List.mem_append_left _ hid
      · exact List.mem_append_right _
          (List.mem_filter.mpr ⟨List.mem_dedup.mpr hbatch, decide_eq_true hid⟩)
    · refine ih ?_ hbatches
      rw [List.length_append]
      omega

end

namespace Superviseur

/-- The points of a connection that has served a request. -/
def served (points : List Uuid) (rawIds : List String) : List Uuid :=
  match newPoints points rawIds with
  | .ok new => points ++ new
  | .error _ => points

theorem mapM_read {rawIds : List String}
    (h : ∀ raw ∈ rawIds, (UuidText.read raw).isSome = true) :
    rawIds.mapM UuidText.read = some (rawIds.filterMap UuidText.read) := by
  induction rawIds with
  | nil => rfl
  | cons raw rawIds ih =>
    obtain ⟨u, hu⟩ := Option.isSome_iff_exists.mp (h raw (List.mem_cons_self ..))
    rw [List.mapM_cons, hu, ih fun raw hraw ↦ h raw (List.mem_cons_of_mem _ hraw),
      List.filterMap_cons, hu]
    rfl

/-- The requests whose identifiers can all be read are granted by their number of points alone. -/
theorem foldl_served {points : List Uuid} {requests : List (List String)}
    (h : ∀ rawIds ∈ requests, ∀ raw ∈ rawIds, (UuidText.read raw).isSome = true) :
    requests.foldl served points =
      grant maxSubscriptions points (requests.map (List.filterMap UuidText.read)) := by
  induction requests generalizing points with
  | nil => rfl
  | cons rawIds requests ih =>
    have hrest := fun points ↦ @ih points fun rawIds hrawIds ↦
      h rawIds (List.mem_cons_of_mem _ hrawIds)
    have hread := mapM_read (h rawIds (List.mem_cons_self ..))
    rw [List.foldl_cons, List.map_cons, grant, served, newPoints, hread]
    dsimp only
    by_cases hlimit : maxSubscriptions < points.length +
        ((rawIds.filterMap UuidText.read).dedup.filter fun id ↦ id ∉ points).length
    · rw [if_pos hlimit, if_pos hlimit, hrest]
    · rw [if_neg hlimit, if_neg hlimit, hrest]

/-- The points a command subscribes to. -/
def Command.added : Command → List Uuid
  | subscribe ids => ids
  | unsubscribe _ => []

namespace Realtime

/-- The requests for points of a run, in order. -/
def requests (es : List Event) : List (List String) :=
  es.filterMap fun e ↦ match e with
    | .subscribe rawIds => some rawIds
    | _ => none

/-- The points the connection has, or is about to have. -/
def promised (s : Realtime) : List Uuid :=
  s.points ++ match s.serving with
    | .subscribing new => new
    | _ => []

/-- The connection gives no point up, and Redis has, or is about to have, all its channels. -/
structure Growing (s : Realtime) : Prop where
  serving : ∀ wanted, s.serving ≠ .unsubscribing wanted
  commands : ∀ ids, .unsubscribe ids ∉ s.commands
  channels : s.channels ++ s.commands.flatMap Command.added = s.promised

variable {batchRows : ℕ} {C : Realtime → Event → Prop} {s t : Realtime} {e : Event}

/-- A step after which the connection has as many points, asked for or given by Redis. -/
theorem Growing.keep (h : s.Growing) (hserving : ∀ wanted, t.serving ≠ .unsubscribing wanted)
    (hcommands : t.commands = s.commands) (hchannels : t.channels = s.channels)
    (hpromised : t.promised = s.promised) : t.Growing where
  serving := hserving
  commands ids := hcommands ▸ h.commands ids
  channels := by
    rw [hchannels, hcommands, hpromised]
    exact h.channels

theorem Growing.subscribe (h : s.Growing) {rawIds : List String}
    (hstep : s.next batchRows (.subscribe rawIds) = some t) :
    t.Growing ∧ t.promised = served s.promised rawIds := by
  have hpromised : s.serving = .idle → s.promised = s.points := fun hidle ↦ by
    rw [promised, hidle]
    exact List.append_nil _
  cases step_of_next hstep with
  | refuseSubscribe hidle hnew =>
    refine ⟨h, ?_⟩
    rw [hpromised hidle, served, hnew]
  | noneToAdd hidle hnew =>
    refine ⟨h, ?_⟩
    rw [hpromised hidle, served, hnew]
    exact (List.append_nil _).symm
  | subscribe hidle hnew =>
    refine ⟨⟨fun wanted ↦ nofun, fun ids hids ↦ ?_, ?_⟩, ?_⟩
    · rcases List.mem_append.mp hids with hids | hids
      · exact h.commands ids hids
      · nomatch List.mem_singleton.mp hids
    · have hchannels := h.channels
      rw [hpromised hidle] at hchannels
      rw [List.flatMap_append, ← List.append_assoc, hchannels, List.flatMap_singleton]
      rfl
    · rw [hpromised hidle, served, hnew]
      rfl

/-- **Step lemma.** -/
theorem Growing.step (h : s.Growing) (he : ∀ rawIds, e ≠ .unsubscribe rawIds)
    (hstep : s.next batchRows e = some t) :
    t.Growing ∧ t.promised = (requests [e]).foldl served s.promised := by
  cases step_of_next hstep with
  | refuseUnsubscribe | noneToRemove | unsubscribe => exact absurd rfl (he _)
  | collector => exact ⟨⟨h.serving, h.commands, h.channels⟩, rfl⟩
  | refuseSubscribe | noneToAdd | subscribe => exact h.subscribe hstep
  | @redis command commands hcommands =>
    refine ⟨⟨h.serving, fun ids hids ↦ h.commands ids ?_, ?_⟩, rfl⟩
    · rw [hcommands]
      exact List.mem_cons_of_mem _ hids
    · have hchannels := h.channels
      rw [hcommands, List.flatMap_cons, ← List.append_assoc] at hchannels
      cases command with
      | subscribe ids => exact hchannels
      | unsubscribe ids => exact absurd (hcommands ▸ List.mem_cons_self ..) (h.commands ids)
  | @subscribed new hserving =>
    have hpromised : s.promised = s.points ++ new := by rw [promised, hserving]
    refine ⟨h.keep (fun wanted ↦ nofun) rfl rfl ?_, ?_⟩
    · rw [hpromised]
      exact List.append_nil _
    · rw [hpromised]
      exact List.append_nil _
  | unsubscribed hserving => exact absurd hserving (h.serving _)
  | read hserving | send hserving | served hserving =>
    -- the points asked for are those of the connection, before and after
    have hpromised : s.promised = s.points ++ [] := by rw [promised, hserving]
    exact ⟨h.keep (fun wanted ↦ nofun) rfl rfl hpromised.symm, hpromised.symm⟩
  | take | relay => exact ⟨⟨h.serving, h.commands, h.channels⟩, rfl⟩

theorem requests_cons (e : Event) (es : List Event) :
    requests (e :: es) = requests [e] ++ requests es := by
  rw [requests, requests, requests, ← List.filterMap_append, List.singleton_append]

/-- The points of a connection that has served its requests, none of which gives points up, are
those granted; Redis has their channels. -/
theorem points_of_run {recorder : Recorder} {es : List Event}
    (hrun : Run batchRows C (accept recorder) es s) (hes : ∀ rawIds, .unsubscribe rawIds ∉ es)
    (hserving : s.serving = .idle) (hcommands : s.commands = []) :
    s.points = (requests es).foldl served [] ∧ s.channels = s.points := by
  have hpath : ∀ {s t : Realtime} {es : List Event}, Run batchRows C s es t → s.Growing →
      (∀ rawIds, .unsubscribe rawIds ∉ es) →
        t.Growing ∧ t.promised = (requests es).foldl served s.promised := by
    intro s t es hrun
    induction hrun with
    | nil s => exact fun hs _ ↦ ⟨hs, rfl⟩
    | cons hstep _ ih =>
      intro hs hes
      obtain ⟨ht, hpromised⟩ := hs.step
        (fun rawIds heq ↦ hes rawIds (heq ▸ List.mem_cons_self ..)) hstep.2
      rw [requests_cons, List.foldl_append, ← hpromised]
      exact ih ht fun rawIds hmem ↦ hes rawIds (List.mem_cons_of_mem _ hmem)
  have hstart : (accept recorder).Growing := ⟨fun wanted ↦ nofun, fun ids ↦ nofun, rfl⟩
  obtain ⟨hgrowing, hpromised⟩ := hpath hrun hstart hes
  have hpoints : s.promised = s.points := by
    rw [promised, hserving]
    exact List.append_nil _
  have hchannels := hgrowing.channels
  rw [hcommands, List.flatMap_nil, List.append_nil, hpoints] at hchannels
  rw [hpoints] at hpromised
  exact ⟨hpromised, hchannels⟩

/-! ## The requests that are served -/

/-- The connection has served the requests, and Redis has taken its commands into account. -/
structure HasServed (batchRows : ℕ) (recorder : Recorder) (sent : List (List String))
    (s : Realtime) : Prop where
  run : ∃ es, Run batchRows (fun _ _ ↦ True) (accept recorder) es s ∧ requests es = sent ∧
    ∀ rawIds, .unsubscribe rawIds ∉ es
  serving : s.serving = .idle
  commands : s.commands = []

theorem HasServed.points {recorder : Recorder} {sent : List (List String)}
    (h : HasServed batchRows recorder sent s) :
    s.points = sent.foldl served [] ∧ s.channels = s.points := by
  obtain ⟨es, hrun, rfl, hes⟩ := h.run
  exact points_of_run hrun hes h.serving h.commands

theorem exec_sending (s : Realtime) (rows : List Reading) :
    Trace.exec (next batchRows) { s with serving := .sending rows }
        (rows.map (fun _ ↦ .send 0) ++ [.served]) =
      some { s with serving := .idle, sent := s.sent ++ rows } := by
  induction rows generalizing s with
  | nil => rw [List.append_nil]; rfl
  | cons row rows ih =>
    have hsend : Trace.exec (next batchRows) { s with serving := .sending (row :: rows) }
        ((row :: rows).map (fun _ ↦ .send 0) ++ [.served]) =
          Trace.exec (next batchRows)
            { s with serving := .sending rows, sent := s.sent ++ [row] }
            (rows.map (fun _ ↦ .send 0) ++ [.served]) := rfl
    rw [hsend, ih { s with sent := s.sent ++ [row] }, List.append_assoc, List.singleton_append]

theorem exists_serving (batchRows : ℕ) (hserving : s.serving = .idle) (hcommands : s.commands = [])
    (rawIds : List String) :
    ∃ es t, Run batchRows (fun _ _ ↦ True) s es t ∧ requests es = [rawIds] ∧
      (∀ rawIds, .unsubscribe rawIds ∉ es) ∧ t.serving = .idle ∧ t.commands = [] := by
  have hstay : s.next batchRows (.subscribe rawIds) = some s →
      ∃ es t, Run batchRows (fun _ _ ↦ True) s es t ∧ requests es = [rawIds] ∧
        (∀ rawIds, .unsubscribe rawIds ∉ es) ∧ t.serving = .idle ∧ t.commands = [] :=
    fun hstep ↦ ⟨[.subscribe rawIds], s, .single ⟨trivial, hstep⟩, rfl,
      fun _ hmem ↦ (nomatch List.mem_singleton.mp hmem), hserving, hcommands⟩
  cases hnew : newPoints s.points rawIds with
  | error e => exact hstay (by simp only [next, hserving, hnew])
  | ok new =>
    by_cases hnil : new = []
    · subst hnil
      exact hstay (by simp only [next, hserving, hnew])
    -- The points are new: Redis is told, then their rows are read and sent.
    let subscribed : Realtime :=
      { s with points := s.points ++ new, channels := s.channels ++ new, commands := [] }
    let rows := new.filterMap s.row
    have hfirst : Trace.exec (next batchRows) s [.subscribe rawIds, .redis, .resume, .read] =
        some { subscribed with serving := .sending rows } := by
      have hsubscribe : s.next batchRows (.subscribe rawIds) = some { s with
          serving := .subscribing new
          commands := [.subscribe new] } := by
        simp only [next, hserving, hnew, hcommands, List.nil_append]
      rw [Trace.exec, hsubscribe]
      rfl
    have hexec : Trace.exec (next batchRows) s ([.subscribe rawIds, .redis, .resume, .read] ++
        (rows.map (fun _ ↦ .send 0) ++ [.served])) =
          some { subscribed with serving := .idle, sent := s.sent ++ rows } := by
      rw [Trace.exec_append, hfirst]
      exact exec_sending subscribed rows
    refine ⟨_, _, .of_exec (fun _ _ _ ↦ trivial) hexec, ?_, fun _ hmem ↦ ?_, rfl, rfl⟩
    · rw [requests, List.filterMap_append, List.filterMap_append,
        List.filterMap_eq_nil_iff.mpr (List.forall_mem_map.mpr fun _ _ ↦ rfl)]
      rfl
    · simp at hmem

theorem exists_hasServed (batchRows : ℕ) (recorder : Recorder) (sent : List (List String)) :
    ∃ s, HasServed batchRows recorder sent s := by
  induction sent using List.reverseRecOn with
  | nil => exact ⟨accept recorder, ⟨[], .nil _, rfl, fun _ hmem ↦ nomatch hmem⟩, rfl, rfl⟩
  | append_singleton sent rawIds ih =>
    obtain ⟨s, ⟨es, hrun, hrequests, hes⟩, hserving, hcommands⟩ := ih
    obtain ⟨es', t, hrun', hrequests', hes', hserving', hcommands'⟩ :=
      exists_serving batchRows hserving hcommands rawIds
    refine ⟨t, ⟨es ++ es', hrun.append hrun', ?_, fun raw hmem ↦ ?_⟩, hserving', hcommands'⟩
    · rw [requests, List.filterMap_append]
      exact congrArg₂ _ hrequests hrequests'
    · rcases List.mem_append.mp hmem with hmem | hmem
      · exact hes raw hmem
      · exact hes' raw hmem

end Realtime

end Superviseur
