import Mathlib.Data.List.Induction
import Mathlib.Data.List.TakeWhile
import Superviseur.Alarms.Notifier
import Superviseur.Library.Trace
import Superviseur.Library.Windows

/-!
# How many messages leave in a window

For a clock that does not go back, in any window of length `window_s`, at most `threshold`
notifications leave by themselves for a recipient (`sliding_run`), whatever the sequence of calls.
Digests are another matter. One is due when the oldest of the sends still in the window leaves it,
and the next one likewise: where that send is from before the first digest, two digests leave less
than a window apart. They are kept a window apart exactly where no digest is opened in that case
(`antiFlood_iff`).
-/

namespace Superviseur

namespace Notifier

open Windows

/-- The dates of the jobs of one kind queued for a recipient. -/
def dates (digest : Bool) (key : Recipient) (s : Notifier) : List Instant :=
  ((s.jobsFor key).filter fun q ↦ q.job.digest = digest).map Queued.queuedAt

/-- In a window, at most `threshold` notifications leave by themselves, and one digest. -/
def Bounded (cfg : Config) (s : Notifier) : Prop :=
  ∀ key, AtMost cfg.threshold cfg.windowS (dates false key s) ∧
    AtMost 1 cfg.windowS (dates true key s)

/-! ## The condition -/

/-- Routing to `key` now opens no digest while one of its digests is more recent than the oldest
send in the window. -/
def OpensLate (cfg : Config) (now : Instant) (s : Notifier) (key : Recipient) : Prop :=
  s.digests.get? key = none → cfg.threshold ≤ (prune cfg now (s.recent key)).length →
    ∀ date ∈ dates true key s, date ≤ (prune cfg now (s.recent key)).head?.getD now

instance (cfg : Config) (now : Instant) (s : Notifier) (key : Recipient) :
    Decidable (OpensLate cfg now s key) := by
  unfold OpensLate
  infer_instance

/-- So it is for each recipient of a notification, in turn. -/
def RoutesLate (cfg : Config) (now : Instant) (notification : Notification) :
    Notifier → List Recipient → Prop
  | _, [] => True
  | s, key :: keys => OpensLate cfg now s key ∧
    RoutesLate cfg now notification (route cfg now notification s key) keys

instance decidableRoutesLate (cfg : Config) (now : Instant) (notification : Notification) :
    (s : Notifier) → (keys : List Recipient) →
      Decidable (RoutesLate cfg now notification s keys)
  | _, [] => inferInstanceAs (Decidable True)
  | s, key :: keys =>
    have := decidableRoutesLate cfg now notification (route cfg now notification s key) keys
    inferInstanceAs (Decidable (OpensLate cfg now s key ∧
      RoutesLate cfg now notification (route cfg now notification s key) keys))

/-- So it is in a call. -/
def CallsLate (cfg : Config) (s : Notifier) : Op → Prop
  | .submit now notification => RoutesLate cfg now notification s (recipients cfg notification)
  | .flush _ => True

instance (cfg : Config) (s : Notifier) : (op : Op) → Decidable (CallsLate cfg s op)
  | .submit now notification => inferInstanceAs (Decidable (RoutesLate cfg now notification s _))
  | .flush _ => inferInstanceAs (Decidable True)

/-- The bound holds after each call, and would still hold if `flush_due` were called then, or
later. -/
def AntiFlood (cfg : Config) (ops : List Op) : Prop :=
  ∀ pre, pre <+: ops → Bounded cfg (run cfg pre) ∧
    ∀ t, (∀ op ∈ pre, op.now ≤ t) → Bounded cfg (run cfg (pre ++ [.flush t]))

/-! ## What a call queues -/

section Dates

variable {cfg : Config} {now : Instant} {notification : Notification} {s : Notifier}
  {key other : Recipient} {digest : Bool}

theorem dates_route_of_ne (h : other ≠ key) :
    dates digest other (route cfg now notification s key) = dates digest other s := by
  rw [dates, (route_of_ne h).2.2, dates]

theorem dates_true_route (key' : Recipient) :
    dates true key' (route cfg now notification s key) = dates true key' s := by
  by_cases h : key' = key
  · subst h
    unfold route dates jobsFor setRecent
    dsimp only
    split
    · rfl
    · split
      · rfl
      · rw [List.filter_append, List.filter_append, List.map_append]
        simp [List.filter_cons]
  · exact dates_route_of_ne h

/-- The notification leaves by itself exactly where no digest waits and there is room. -/
theorem dates_false_route : dates false key (route cfg now notification s key)
    = dates false key s ++
      if s.digests.get? key = none ∧ (prune cfg now (s.recent key)).length < cfg.threshold
      then [now] else [] := by
  unfold route dates jobsFor setRecent
  dsimp only
  cases hdigest : s.digests.get? key with
  | some digest => simp
  | none =>
    dsimp only
    by_cases hroom : cfg.threshold ≤ (prune cfg now (s.recent key)).length
    · rw [if_pos hroom, if_neg fun h ↦ absurd hroom (by omega), List.append_nil]
    · rw [if_neg hroom, if_pos ⟨rfl, by omega⟩]
      simp [Job.recipient]

theorem recent_route : (route cfg now notification s key).recent key
    = prune cfg now (s.recent key) ++
      if s.digests.get? key = none ∧ (prune cfg now (s.recent key)).length < cfg.threshold
      then [now] else [] := by
  unfold route setRecent
  dsimp only
  cases hdigest : s.digests.get? key with
  | some digest => simp
  | none =>
    dsimp only
    by_cases hroom : cfg.threshold ≤ (prune cfg now (s.recent key)).length
    · rw [if_pos hroom, if_neg fun h ↦ absurd hroom (by omega), List.append_nil]
      exact Function.update_self _ _ _
    · rw [if_neg hroom, if_pos ⟨rfl, by omega⟩]
      exact Function.update_self _ _ _

theorem dates_flushDue (now : Instant) (s : Notifier) (key : Recipient) :
    dates false key (s.flushDue now) = dates false key s ∧
      dates true key (s.flushDue now) = dates true key s ++
        ((s.digests.get? key).filter fun digest ↦ decide (digest.dueAt ≤ now)).toList.map
          fun _ ↦ now := by
  constructor
  · rw [dates, jobsFor_flushDue, List.filter_append, List.map_append, dates]
    cases (s.digests.get? key).filter fun digest ↦ decide (digest.dueAt ≤ now) <;> simp
  · rw [dates, jobsFor_flushDue, List.filter_append, List.map_append, dates]
    cases (s.digests.get? key).filter fun digest ↦ decide (digest.dueAt ≤ now) <;> simp

end Dates

/-! ## Notifications that leave by themselves -/

/-- The sends that are no longer in the deque are older than the window, and no window has more than
`threshold` sends. -/
structure Sliding (cfg : Config) (last : Instant) (key : Recipient) (s : Notifier) : Prop where
  bound : AtMost cfg.threshold cfg.windowS (dates false key s)
  recent : ∃ gone, dates false key s = gone ++ s.recent key ∧
    ∀ date ∈ gone, cfg.windowS ≤ last - date

section Singles

variable {cfg : Config} {last now : Instant} {notification : Notification} {s : Notifier}
  {key : Recipient}

theorem Sliding.mono (h : Sliding cfg last key s) (hle : last ≤ now) : Sliding cfg now key s := by
  obtain ⟨gone, hgone, hold⟩ := h.recent
  refine ⟨h.bound, gone, hgone, fun date hdate ↦ (hold date hdate).trans ?_⟩
  exact sub_le_sub_right hle date

theorem old_of_popped {date : Instant} {recent : List Instant}
    (h : date ∈ recent.takeWhile fun sent ↦ decide (cfg.windowS ≤ now - sent)) :
    cfg.windowS ≤ now - date := by
  have hold := List.mem_takeWhile_imp h
  exact of_decide_eq_true hold

theorem Sliding.count_le (h : Sliding cfg now key s) :
    ((dates false key s).filter fun date ↦ now < date + cfg.windowS).length
      ≤ (prune cfg now (s.recent key)).length := by
  obtain ⟨gone, hgone, hold⟩ := h.recent
  have hexpired : ∀ dates : List Instant, (∀ date ∈ dates, cfg.windowS ≤ now - date) →
      (dates.filter fun date ↦ now < date + cfg.windowS) = [] := by
    intro dates hdates
    refine List.filter_eq_nil_iff.mpr fun date hdate ↦ ?_
    have := hdates date hdate
    simp only [decide_eq_true_eq, not_lt]
    linarith
  have hsplit := (List.takeWhile_append_dropWhile (l := s.recent key)
    (p := fun sent ↦ decide (cfg.windowS ≤ now - sent))).symm
  rw [hgone, List.filter_append, hexpired gone hold, List.nil_append, hsplit, List.filter_append,
    hexpired _ fun _ ↦ old_of_popped, List.nil_append, ← hsplit]
  exact List.length_filter_le _ _

theorem Sliding.route (h : Sliding cfg now key s) (key' : Recipient) :
    Sliding cfg now key (route cfg now notification s key') := by
  by_cases hkey : key = key'
  · subst hkey
    obtain ⟨gone, hgone, hold⟩ := h.recent
    refine ⟨?_, gone ++ (s.recent key).takeWhile fun sent ↦ decide (cfg.windowS ≤ now - sent),
      ?_, ?_⟩
    · rw [dates_false_route]
      split
      · rename_i hroom
        exact h.bound.append (h.count_le.trans_lt hroom.2)
      · rw [List.append_nil]
        exact h.bound
    · rw [dates_false_route, recent_route, hgone, List.append_assoc, List.append_assoc, prune,
        ← List.append_assoc (List.takeWhile _ _), List.takeWhile_append_dropWhile]
    · intro date hdate
      rcases List.mem_append.mp hdate with hdate | hdate
      · exact hold date hdate
      · exact old_of_popped hdate
  · have hother := @route_of_ne cfg now notification s key' key hkey
    refine ⟨?_, ?_⟩
    · rw [dates_route_of_ne hkey]
      exact h.bound
    · rw [dates_route_of_ne hkey, hother.1]
      exact h.recent

theorem Sliding.flushDue (h : Sliding cfg last key s) (now : Instant) :
    Sliding cfg last key (s.flushDue now) := by
  refine ⟨?_, ?_⟩
  · rw [(dates_flushDue now s key).1]
    exact h.bound
  · rw [(dates_flushDue now s key).1]
    exact h.recent

end Singles

/-! ## Digests -/

/-- The digests queued for a recipient are a window apart, and so will be the one that waits. -/
structure Spaced (cfg : Config) (key : Recipient) (s : Notifier) : Prop where
  bound : AtMost 1 cfg.windowS (dates true key s)
  due : ∀ digest, s.digests.get? key = some digest →
    ∀ date ∈ dates true key s, date + cfg.windowS ≤ digest.dueAt

section Digests

variable {cfg : Config} {now : Instant} {notification : Notification} {s : Notifier}
  {key : Recipient}

/-- The digest of the recipient, after a notification is routed to it. -/
theorem digest_route : (route cfg now notification s key).digests.get? key =
    match s.digests.get? key with
    | some digest => some (digest.add notification)
    | none =>
      if cfg.threshold ≤ (prune cfg now (s.recent key)).length then
        some (Digest.add ⟨dueAt cfg now (prune cfg now (s.recent key)), []⟩ notification)
      else none := by
  unfold Notifier.route setRecent
  dsimp only
  cases hdigest : s.digests.get? key with
  | some digest => exact OrderedDict.get?_insert_self
  | none =>
    dsimp only
    split
    · exact OrderedDict.get?_insert_self
    · exact hdigest

theorem Spaced.route (h : Spaced cfg key s) {key' : Recipient}
    (hlate : OpensLate cfg now s key') : Spaced cfg key (route cfg now notification s key') := by
  refine ⟨?_, fun digest hdigest date hdate ↦ ?_⟩
  · rw [dates_true_route]
    exact h.bound
  · rw [dates_true_route] at hdate
    by_cases hkey : key = key'
    · subst hkey
      rw [digest_route] at hdigest
      cases hwaiting : s.digests.get? key with
      | some waiting =>
        rw [hwaiting, Option.some.injEq] at hdigest
        rw [← hdigest]
        exact h.due waiting hwaiting date hdate
      | none =>
        rw [hwaiting] at hdigest
        dsimp only at hdigest
        split at hdigest
        · -- the digest is opened now
          rename_i hfull
          rw [Option.some.injEq] at hdigest
          rw [← hdigest]
          exact add_le_add_left (hlate hwaiting hfull date hdate) cfg.windowS
        · cases hdigest
    · rw [(route_of_ne hkey).2.1] at hdigest
      exact h.due digest hdigest date hdate

theorem Spaced.flushDue (h : Spaced cfg key s) (now : Instant) :
    Spaced cfg key (s.flushDue now) := by
  have hdates := (dates_flushDue now s key).2
  have hwaiting : (s.flushDue now).digests.get? key
      = (s.digests.get? key).filter fun digest ↦ !decide (digest.dueAt ≤ now) :=
    OrderedDict.get?_filter
  cases hdigest : s.digests.get? key with
  | none =>
    rw [hdigest] at hdates hwaiting
    refine ⟨?_, fun digest hsome ↦ ?_⟩
    · rw [hdates]
      simpa using h.bound
    · rw [hwaiting] at hsome
      cases hsome
  | some waiting =>
    rw [hdigest] at hdates hwaiting
    by_cases hdue : waiting.dueAt ≤ now
    · refine ⟨?_, fun digest hsome ↦ ?_⟩
      · rw [hdates]
        simp only [Option.filter, hdue, decide_true, if_true, Option.toList_some, List.map_cons,
          List.map_nil]
        exact h.bound.append_of_spaced fun date hdate ↦
          (h.due waiting hdigest date hdate).trans hdue
      · rw [hwaiting] at hsome
        simp [Option.filter, hdue] at hsome
    · refine ⟨?_, fun digest hsome date hdate ↦ ?_⟩
      · rw [hdates]
        simpa [Option.filter, hdue] using h.bound
      · rw [hwaiting] at hsome
        rw [hdates] at hdate
        simp only [Option.filter, hdue, decide_false, Bool.not_false, if_true,
          Option.some.injEq] at hsome
        simp only [Option.filter, hdue, decide_false, Bool.false_eq_true, if_false,
          Option.toList_none, List.map_nil, List.append_nil] at hdate
        rw [← hsome]
        exact h.due waiting hdigest date hdate

/-- Routing what remains queues no digest, and leaves the date of the one that waits. -/
theorem foldl_route_of_waiting {waiting : Digest} (hwaiting : s.digests.get? key = some waiting)
    (keys : List Recipient) : dates true key (keys.foldl (route cfg now notification) s)
        = dates true key s ∧
      ∃ items, (keys.foldl (Notifier.route cfg now notification) s).digests.get? key
        = some ⟨waiting.dueAt, items⟩ := by
  induction keys generalizing s waiting with
  | nil => exact ⟨rfl, waiting.items, hwaiting⟩
  | cons key' keys ih =>
    have hnext : ∃ items, (Notifier.route cfg now notification s key').digests.get? key
        = some ⟨waiting.dueAt, items⟩ := by
      by_cases hkey : key = key'
      · subst hkey
        rw [digest_route, hwaiting]
        exact ⟨_, rfl⟩
      · rw [(route_of_ne hkey).2.1]
        exact ⟨waiting.items, hwaiting⟩
    obtain ⟨items, hitems⟩ := hnext
    obtain ⟨hdates, hlast⟩ := ih hitems
    rw [List.foldl_cons, hdates, dates_true_route]
    exact ⟨rfl, hlast⟩

/-- **A digest opened too early leaves too early.** If a flush after the call may always be made
without two digests in a window, none of those the call opens is opened too early. -/
theorem routesLate_of_bounded (hpast : ∀ key, ∀ date ∈ dates true key s, date ≤ now)
    (keys : List Recipient)
    (h : ∀ t, now ≤ t → ∀ key, AtMost 1 cfg.windowS (dates true key
      ((keys.foldl (Notifier.route cfg now notification) s).flushDue t))) :
    RoutesLate cfg now notification s keys := by
  induction keys generalizing s with
  | nil => exact trivial
  | cons key keys ih =>
    refine ⟨fun hnone hfull date hdate ↦ ?_, ih (fun key' date hdate ↦ ?_) h⟩
    · by_contra hlt
      cases hhead : (prune cfg now (s.recent key)).head? with
      | none =>
        rw [hhead] at hlt
        exact hlt (hpast key date hdate)
      | some first =>
        rw [hhead, Option.getD_some, not_le] at hlt
        -- the digest opened is due when `first` leaves the window, which is after `now`
        have hopened : (Notifier.route cfg now notification s key).digests.get? key
            = some ⟨first + cfg.windowS, [notification]⟩ := by
          rw [digest_route, hnone, dueAt, hhead]
          exact if_pos hfull
        have hnow : now < first + cfg.windowS := by
          have hkept := List.head?_dropWhile_not
            (fun sent ↦ decide (cfg.windowS ≤ now - sent)) (s.recent key)
          rw [prune] at hhead
          rw [hhead] at hkept
          simp only [decide_eq_false_iff_not, not_le] at hkept
          linarith
        obtain ⟨hdates, items, hwaiting⟩ := foldl_route_of_waiting hopened keys
        have hflushed := h _ hnow.le key
        rw [List.foldl_cons, (dates_flushDue _ _ _).2, hdates, dates_true_route, hwaiting,
          Option.filter_some, if_pos (decide_eq_true le_rfl)] at hflushed
        refine not_atMost_one hdate ?_ ?_ hflushed
        · exact (hpast key date hdate).trans hnow.le
        · exact add_lt_add_left hlt cfg.windowS
    · rw [dates_true_route] at hdate
      exact hpast key' date hdate

end Digests

/-! ## Runs -/

/-- No digest of a recipient is opened while an earlier one is more recent than the oldest send
in the window. -/
def AllLate (cfg : Config) (ops : List Op) : Prop :=
  ∀ pre op, pre ++ [op] <+: ops → CallsLate cfg (run cfg pre) op

/-- The clock does not go back. -/
def Clocked (ops : List Op) : Prop := (ops.map Op.now).Pairwise (· ≤ ·)

instance (ops : List Op) : Decidable (Clocked ops) :=
  inferInstanceAs (Decidable (List.Pairwise _ _))

section Runs

variable {cfg : Config} {ops pre : List Op} {op : Op} {s : Notifier} {key : Recipient}
  {t : Instant}

theorem run_concat (cfg : Config) (ops : List Op) (op : Op) :
    run cfg (ops ++ [op]) = step cfg (run cfg ops) op := by
  rw [run, List.foldl_append, run, List.foldl_cons, List.foldl_nil]

theorem clocked_concat_iff :
    Clocked (ops ++ [op]) ↔ Clocked ops ∧ ∀ o ∈ ops, o.now ≤ op.now := by
  simp [Clocked, List.pairwise_append]

theorem Clocked.of_prefix (h : Clocked ops) (hpre : pre <+: ops) : Clocked pre :=
  h.sublist (hpre.sublist.map Op.now)

theorem AllLate.of_prefix (h : AllLate cfg ops) (hpre : pre <+: ops) : AllLate cfg pre :=
  fun pre' op hop ↦ h pre' op (hop.trans hpre)

theorem exists_now_le (ops : List Op) : ∃ t, ∀ op ∈ ops, op.now ≤ t := by
  induction ops with
  | nil => exact ⟨0, fun op hop ↦ absurd hop List.not_mem_nil⟩
  | cons op ops ih =>
    obtain ⟨t, ht⟩ := ih
    refine ⟨max op.now t, fun o ho ↦ ?_⟩
    rcases List.mem_cons.mp ho with rfl | ho
    · exact le_max_left _ _
    · exact (ht o ho).trans (le_max_right _ _)

theorem allLate_iff : AllLate cfg ops ↔
    ∀ i (hi : i < ops.length), CallsLate cfg (run cfg (ops.take i)) (ops.get ⟨i, hi⟩) :=
  Trace.forall_concat_prefix_iff (P := fun pre op ↦ CallsLate cfg (run cfg pre) op)

instance : Decidable (AllLate cfg ops) := decidable_of_iff _ allLate_iff.symm

theorem Sliding.step (h : Sliding cfg op.now key s) :
    Sliding cfg op.now key (step cfg s op) := by
  rcases op with ⟨now, notification⟩ | now
  · have hfold : ∀ keys : List Recipient,
        Sliding cfg now key (keys.foldl (Notifier.route cfg now notification) s) := by
      intro keys
      induction keys using List.reverseRecOn with
      | nil => exact h
      | append_singleton keys key' ih =>
        rw [List.foldl_append]
        exact ih.route key'
    exact hfold _
  · exact h.flushDue now

/-- **Whatever the calls, at most `threshold` notifications leave by themselves in a window.** -/
theorem sliding_run (hclock : Clocked ops) (hlast : ∀ op ∈ ops, op.now ≤ t) :
    Sliding cfg t key (run cfg ops) := by
  induction ops using List.reverseRecOn generalizing t with
  | nil => exact ⟨atMost_nil _ _, [], rfl, fun date hdate ↦ absurd hdate List.not_mem_nil⟩
  | append_singleton ops op ih =>
    obtain ⟨hclock, hle⟩ := clocked_concat_iff.mp hclock
    rw [run_concat]
    exact (ih hclock hle).step.mono (hlast op (by simp))

theorem Spaced.step (h : Spaced cfg key s) (hlate : CallsLate cfg s op) :
    Spaced cfg key (step cfg s op) := by
  rcases op with ⟨now, notification⟩ | now
  · have hfold : ∀ (keys : List Recipient) (s : Notifier), Spaced cfg key s →
        RoutesLate cfg now notification s keys →
        Spaced cfg key (keys.foldl (Notifier.route cfg now notification) s) := by
      intro keys
      induction keys with
      | nil => exact fun s h _ ↦ h
      | cons key' keys ih => exact fun s h hlate ↦ ih _ (h.route hlate.1) hlate.2
    exact hfold _ s h hlate
  · exact h.flushDue now

theorem spaced_run (hlate : AllLate cfg ops) : Spaced cfg key (run cfg ops) := by
  induction ops using List.reverseRecOn with
  | nil =>
    refine ⟨atMost_nil _ _, fun digest hdigest ↦ ?_⟩
    cases hdigest
  | append_singleton ops op ih =>
    rw [run_concat]
    exact (ih (hlate.of_prefix (List.prefix_append ops [op]))).step
      (hlate ops op List.prefix_rfl)

theorem date_le_of_run (hlast : ∀ op ∈ ops, op.now ≤ t) :
    ∀ date ∈ dates true key (run cfg ops), date ≤ t := by
  induction ops using List.reverseRecOn with
  | nil => exact fun date hdate ↦ absurd hdate List.not_mem_nil
  | append_singleton ops op ih =>
    have hbefore := ih fun o ho ↦ hlast o (List.mem_append_left _ ho)
    have hop := hlast op (by simp)
    intro date hdate
    rw [run_concat] at hdate
    rcases op with ⟨now, notification⟩ | now
    · have hfold : ∀ keys : List Recipient, dates true key
          (keys.foldl (Notifier.route cfg now notification) (run cfg ops))
            = dates true key (run cfg ops) := by
        intro keys
        induction keys using List.reverseRecOn with
        | nil => rfl
        | append_singleton keys key' ih =>
          rw [List.foldl_append, ← ih]
          exact dates_true_route key
      exact hbefore date (hfold _ ▸ hdate)
    · rw [Notifier.step, (dates_flushDue _ _ _).2, List.mem_append] at hdate
      rcases hdate with hdate | hdate
      · exact hbefore date hdate
      · obtain ⟨-, -, rfl⟩ := List.mem_map.mp hdate
        exact hop

end Runs

/-- **The bound holds exactly where no digest is opened too early**: for a clock that does not go
back, at most `threshold` notifications leave by themselves in a window and at most one digest, and
so it is whenever `flush_due` is called, if and only if no digest of a recipient is opened while
an earlier one is more recent than the oldest send in the window. -/
theorem antiFlood_iff (cfg : Config) (ops : List Op) (hclock : Clocked ops) :
    AntiFlood cfg ops ↔ AllLate cfg ops := by
  constructor
  · intro h pre op hop
    rcases op with ⟨now, notification⟩ | now
    · have hpre := clocked_concat_iff.mp (hclock.of_prefix hop)
      refine routesLate_of_bounded (fun key ↦ date_le_of_run hpre.2) _ fun t ht key ↦ ?_
      have hflush := (h _ hop).2 t fun o ho ↦ by
        rcases List.mem_append.mp ho with ho | ho
        · exact (hpre.2 o ho).trans ht
        · rw [List.mem_singleton.mp ho]
          exact ht
      rw [run_concat, run_concat] at hflush
      exact (hflush key).2
    · exact trivial
  · intro hlate pre hpre
    have hclocked := hclock.of_prefix hpre
    have hspaced := fun key ↦ @spaced_run cfg pre key (hlate.of_prefix hpre)
    refine ⟨fun key ↦ ?_, fun t ht key ↦ ?_⟩
    · obtain ⟨last, hlast⟩ := exists_now_le pre
      exact ⟨(sliding_run hclocked hlast).bound, (hspaced key).bound⟩
    · rw [run_concat]
      exact ⟨((sliding_run hclocked ht).flushDue t).bound, ((hspaced key).flushDue t).bound⟩

/-- A notification for one address. -/
def recap : Notification where
  eventId := 1
  kind := .raised
  severity := .critical
  subject := ""
  payload := ⟨1, 3, none, .high, .critical, .activeUnacked, 7, "T1", none, none, none, none, 0,
    none, none, none⟩
  channels := ["email:ops@x.fr"]

/-- Two notifications a minute. -/
def pairs : Config := ⟨[], 2, 60⟩

/-- Three notifications at once, the digest at the end of the window, and one more. -/
theorem antiFlood_resumes : AntiFlood pairs [.submit 0 recap, .submit 0 recap, .submit 0 recap,
    .flush 61, .submit 61 recap] :=
  (antiFlood_iff pairs _ (by decide +kernel)).mpr (by decide +kernel)

/-- A digest leaves at 60 s. The oldest of the sends that remain is from 59 s: the next digest
leaves at 119 s. -/
def twoDigests : List Op := [.submit 0 recap, .submit 59 recap, .submit 59 recap, .flush 60,
  .submit 60 recap, .submit 60 recap, .flush 119]

theorem not_antiFlood : ¬ ∀ (cfg : Config) (ops : List Op), 0 ≤ cfg.windowS → Clocked ops →
    Bounded cfg (run cfg ops) := by
  intro h
  have hbounded := (h pairs twoDigests (by decide) (by decide)
    ("email", "ops@x.fr")).2 60
  exact absurd hbounded (by decide +kernel)

end Notifier

end Superviseur
