import Superviseur.Front.TrendSeries

/-!
# Which live points are kept

A live sample that comes too soon after the last live point replaces it, and the point moves to the
instant of the sample. The next sample is compared with the point where it now is: while samples
come sooner than the gap, the one point moves on and none is left behind. What is kept is, of each
stretch of such samples, the last one (`run_eq`). A long stretch is a hole in the curve.
-/

namespace Superviseur.Trend

open Increasing (Dense)

variable {V : Type}

/-- The instants that no other one follows within `minGap`. -/
def ends (minGap : ℚ) : List ℚ → List ℚ
  | [] => []
  | [a] => [a]
  | a :: b :: times =>
    if b - a < minGap then ends minGap (b :: times) else a :: ends minGap (b :: times)

/-- The samples, appended one after the other. -/
def appends (samples : List (ℚ × Option V)) : List (Op V) :=
  samples.map fun sample ↦ .append sample.1 sample.2

/-- The live points that come from the samples, the first of which is at `first`. -/
def SeriesData.retained (s : SeriesData V) (first : ℚ) : List ℚ := s.live.filter (first ≤ ·)

/-- The points that are kept leave no hole of more than `gap`. -/
structure NoHole (gap first : ℚ) (retained : List ℚ) : Prop where
  head : ∃ r ∈ retained.head?, r - first ≤ gap
  dense : Dense gap retained

variable {s : SeriesData V} {minGap gap g a t : ℚ} {value : Option V} {front times : List ℚ}

/-! ## The ends of the stretches -/

theorem ends_ne_nil (minGap a : ℚ) (times : List ℚ) : ends minGap (a :: times) ≠ [] := by
  induction times generalizing a with
  | nil => exact List.cons_ne_nil _ _
  | cons b times ih =>
    rw [ends]
    split
    · exact ih b
    · exact List.cons_ne_nil _ _

theorem ends_subset (minGap : ℚ) (times : List ℚ) : ends minGap times ⊆ times := by
  induction times with
  | nil => exact List.Subset.refl _
  | cons a times ih =>
    cases times with
    | nil => exact List.Subset.refl _
    | cons b times =>
      rw [ends]
      split
      · exact List.subset_cons_of_subset a ih
      · exact List.cons_subset_cons a ih

theorem ends_of_close (h : (a :: times).IsChain fun x y ↦ y - x < minGap) :
    ends minGap (a :: times) = [(a :: times).getLast (List.cons_ne_nil _ _)] := by
  induction times generalizing a with
  | nil => rfl
  | cons b times ih =>
    obtain ⟨hclose, hrest⟩ := List.isChain_cons_cons.mp h
    rw [ends, if_pos hclose, ih hrest, List.getLast_cons_cons]

theorem noHole_iff_dense {retained : List ℚ} {first : ℚ} (hne : retained ≠ []) :
    NoHole gap first retained ↔ Dense gap (first :: retained) := by
  obtain ⟨r, rest, rfl⟩ := List.exists_cons_of_ne_nil hne
  constructor
  · rintro ⟨⟨r', hr, hle⟩, hdense⟩
    obtain rfl := Option.some.inj hr
    exact List.isChain_cons_cons.mpr ⟨hle, hdense⟩
  · intro h
    obtain ⟨hle, hdense⟩ := List.isChain_cons_cons.mp h
    exact ⟨⟨r, rfl, hle⟩, hdense⟩

/-! ## What a run keeps -/

theorem appendLive_of_live (hs : s.t = front ++ [a]) (hlive : s.liveFrom ≤ front.length)
    (hlt : a < t) (value : Option V) (minGap : ℚ) :
    (s.appendLive t value minGap).t = (if t - a < minGap then front else front ++ [a]) ++ [t] ∧
      (s.appendLive t value minGap).liveFrom = s.liveFrom := by
  rcases appendLive_cases s t value minGap with ⟨front', lastT, hfront, hbefore, -⟩ |
    ⟨front', hfront, -⟩ | ⟨front', lastT, hfront, -, -, hsoon, hout⟩ | ⟨hlast, hout⟩
  · obtain ⟨rfl, rfl⟩ := List.append_singleton_inj.mp (hs.symm.trans hfront)
    exact absurd hlt (lt_asymm hbefore)
  · obtain ⟨rfl, rfl⟩ := List.append_singleton_inj.mp (hs.symm.trans hfront)
    exact absurd hlt (lt_irrefl _)
  · obtain ⟨rfl, rfl⟩ := List.append_singleton_inj.mp (hs.symm.trans hfront)
    rw [hout, if_pos hsoon]
    exact ⟨rfl, rfl⟩
  · have hgap := (hlast front a hs).2 hlive
    rw [hout, if_neg (not_lt.mpr hgap), ← hs]
    exact ⟨rfl, rfl⟩

/-- **Run lemma.** Of the samples that follow a live point, with this point, the ends of the
stretches are kept. -/
theorem run_eq (samples : List (ℚ × Option V)) (hs : s.t = front ++ [a])
    (hlive : s.liveFrom ≤ front.length) (htimes : (a :: samples.map Prod.fst).Pairwise (· < ·))
    (minGap : ℚ) :
    (s.run minGap (appends samples)).t = front ++ ends minGap (a :: samples.map Prod.fst) ∧
      (s.run minGap (appends samples)).liveFrom = s.liveFrom := by
  induction samples generalizing s front a with
  | nil => exact ⟨hs, rfl⟩
  | cons sample samples ih =>
    obtain ⟨t, value⟩ := sample
    rw [List.map_cons] at htimes ⊢
    obtain ⟨hfirst, hrest⟩ := List.pairwise_cons.mp htimes
    obtain ⟨hout, hfrom⟩ := appendLive_of_live hs hlive (hfirst t List.mem_cons_self) value minGap
    have hlive' : (s.appendLive t value minGap).liveFrom ≤
        (if t - a < minGap then front else front ++ [a]).length := by
      rw [hfrom]
      split
      · exact hlive
      · rw [List.length_append]
        exact hlive.trans (Nat.le_add_right _ _)
    obtain ⟨hrun, hrunFrom⟩ := ih hout hlive' hrest
    refine ⟨hrun.trans ?_, hrunFrom.trans hfrom⟩
    dsimp only
    rw [ends]
    split
    · rfl
    · rw [List.append_assoc, List.singleton_append]

/-- The first sample, later than all, is the last point, which is live. -/
theorem exists_appendLive (hlive : s.liveFrom ≤ s.t.length) (hlater : ∀ x ∈ s.t, x < t)
    (value : Option V) (minGap : ℚ) : ∃ front, (s.appendLive t value minGap).t = front ++ [t] ∧
      (s.appendLive t value minGap).liveFrom ≤ front.length ∧ ∀ x ∈ front, x < t := by
  rcases appendLive_cases s t value minGap with ⟨front, lastT, hfront, hbefore, -⟩ |
    ⟨front, hfront, -⟩ | ⟨front, lastT, hfront, -, hfrom, -, hout⟩ | ⟨-, hout⟩
  · rw [hfront] at hlater
    exact absurd (hlater lastT List.mem_concat_self) (lt_asymm hbefore)
  · rw [hfront] at hlater
    exact absurd (hlater t List.mem_concat_self) (lt_irrefl t)
  · rw [hout]
    rw [hfront] at hlater
    exact ⟨front, rfl, hfrom, fun x hx ↦ hlater x (List.mem_append_left _ hx)⟩
  · rw [hout]
    exact ⟨s.t, rfl, hlive, hlater⟩

/-- **What is kept of samples** is the ends of their stretches. -/
theorem retained_eq (first : ℚ × Option V) (samples : List (ℚ × Option V))
    (hlive : s.liveFrom ≤ s.t.length) (hlater : ∀ t ∈ s.t, t < first.1)
    (hsamples : ((first :: samples).map Prod.fst).Pairwise (· < ·)) :
    (s.run minGap (appends (first :: samples))).retained first.1 =
      ends minGap ((first :: samples).map Prod.fst) := by
  obtain ⟨t, value⟩ := first
  obtain ⟨front, hout, hfrom, hfront⟩ := exists_appendLive hlive hlater value minGap
  obtain ⟨hrun, hrunFrom⟩ := run_eq samples hout hfrom hsamples minGap
  have hrun' : (s.run minGap (appends ((t, value) :: samples))).t =
      front ++ ends minGap (t :: samples.map Prod.fst) := hrun
  have hfrom' : (s.run minGap (appends ((t, value) :: samples))).liveFrom ≤ front.length :=
    hrunFrom.le.trans hfrom
  have hbefore : (front.drop (s.run minGap (appends ((t, value) :: samples))).liveFrom).filter
      (t ≤ ·) = [] := by
    refine List.filter_eq_nil_iff.mpr fun x hx ↦ ?_
    simpa using hfront x (List.mem_of_mem_drop hx)
  have hkept : (ends minGap (t :: samples.map Prod.fst)).filter (t ≤ ·) =
      ends minGap (t :: samples.map Prod.fst) := by
    refine List.filter_eq_self.mpr fun x hx ↦ decide_eq_true ?_
    rcases List.mem_cons.mp (ends_subset _ _ hx) with rfl | hx
    · exact le_rfl
    · exact ((List.pairwise_cons.mp hsamples).1 x hx).le
  rw [SeriesData.retained, SeriesData.live, hrun', List.drop_append_of_le_length hfrom',
    List.filter_append, hbefore, List.nil_append, hkept]
  rfl

/-- **When live samples leave no hole**: the stretches of samples that come sooner than `minGap`
are short, with the time before them. -/
theorem noHole_iff (s : SeriesData V) (minGap g : ℚ) (first : ℚ × Option V)
    (samples : List (ℚ × Option V)) (hlive : s.liveFrom ≤ s.t.length)
    (hlater : ∀ t ∈ s.t, t < first.1)
    (hsamples : ((first :: samples).map Prod.fst).Pairwise (· < ·)) :
    NoHole (minGap + g) first.1
        ((s.run minGap (appends (first :: samples))).retained first.1) ↔
      Dense (minGap + g) (first.1 :: ends minGap ((first :: samples).map Prod.fst)) := by
  rw [retained_eq first samples hlive hlater hsamples]
  exact noHole_iff_dense (ends_ne_nil _ _ _)

/-- Samples every minute, where a minute is the gap. -/
theorem noHole_iff_minutes : NoHole (60 + 60) 0 (((emptySeries : SeriesData ℕ).run 60
    (appends [(0, some 1), (60, some 2), (120, some 3)])).retained 0) :=
  (noHole_iff emptySeries 60 60 (0, some 1) [(60, some 2), (120, some 3)] (Nat.le_refl 0)
    (fun _ h ↦ absurd h List.not_mem_nil) (by decide +kernel)).mpr (by decide +kernel)

/-- Seven samples, one a second. -/
def seconds : List (ℚ × Option ℕ) :=
  [(1, some 1), (2, some 2), (3, some 3), (4, some 4), (5, some 5), (6, some 6)]

/-- **Samples every second, with a gap of four seconds**: the only point that is kept is the last,
six seconds after the first sample. -/
theorem not_noHole : ¬∀ (s : SeriesData ℕ) (minGap g : ℚ) (first : ℚ × Option ℕ)
    (samples : List (ℚ × Option ℕ)), 0 < minGap → 0 < g → s.liveFrom ≤ s.t.length →
    (∀ t ∈ s.t, t < first.1) → ((first :: samples).map Prod.fst).Pairwise (· < ·) →
    Dense g ((first :: samples).map Prod.fst) →
    NoHole (minGap + g) first.1
      ((s.run minGap (appends (first :: samples))).retained first.1) := by
  intro h
  have hlater : ∀ t ∈ (emptySeries : SeriesData ℕ).t, t < 0 := fun _ h ↦ absurd h List.not_mem_nil
  have hpairwise : (((0, some 0) :: seconds).map Prod.fst).Pairwise (· < ·) := by decide +kernel
  have hdense : Dense 1 (((0, some 0) :: seconds).map Prod.fst) := by decide +kernel
  have hnone := h emptySeries 4 1 (0, some 0) seconds (by norm_num) (by norm_num) (Nat.le_refl 0)
    hlater hpairwise hdense
  have hclose : ((0 : ℚ) :: seconds.map Prod.fst).IsChain fun x y ↦ y - x < 4 := by decide +kernel
  rw [retained_eq (0, some 0) seconds (Nat.le_refl 0) hlater hpairwise, List.map_cons,
    ends_of_close hclose] at hnone
  obtain ⟨r, hr, hle⟩ := hnone.head
  obtain rfl := Option.some.inj hr
  exact absurd hle (by decide +kernel)

end Superviseur.Trend
