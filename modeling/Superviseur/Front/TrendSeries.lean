import Superviseur.Library.Increasing
import Superviseur.Library.OrderedDict
import Mathlib.Algebra.Order.Archimedean.Basic
import Mathlib.Data.List.Chain
import Mathlib.Data.List.Induction
import Mathlib.Data.List.Sort
import Mathlib.Data.Rat.Floor

/-!
# The data of a curve

A series has instants, in seconds, and their values; the first ones come from the history and those
from `liveFrom` on have come in real time. A new value is appended, unless it comes too soon after
the last one that has come in real time: this one is then replaced. The window slides, and the
instants it leaves are trimmed.

The instants increase, those of the history are left alone, and the others are spaced: a window
holds few of them (`sound_series`). Instants are exact.
-/

namespace Superviseur.Trend

/-- `SeriesData`. -/
structure SeriesData (V : Type) where
  t : List ℚ
  v : List (Option V)
  liveFrom : ℕ

structure HistoryItem (V : Type) where
  ts : String
  value : Option V

variable {V : Type}

/-- `emptySeries`. -/
def emptySeries : SeriesData V := ⟨[], [], 0⟩

/-- The last value of each instant; `parse` is `Date.parse`, in milliseconds, where that is a finite
number. -/
def pointsOf (parse : String → Option ℚ) (items : List (HistoryItem V)) :
    OrderedDict ℚ (Option V) :=
  items.foldl (fun points item ↦
    match parse item.ts with
    | some ms => points.insert (ms / 1000) item.value
    | none => points) .empty

/-- `historyToSeries`. -/
def historyToSeries (parse : String → Option ℚ) (items : List (HistoryItem V)) : SeriesData V :=
  let points := pointsOf parse items
  let times := (points.entries.map Prod.fst).mergeSort fun a b ↦ decide (a ≤ b)
  { t := times, v := times.map fun t ↦ (points.get? t).join, liveFrom := times.length }

namespace SeriesData

def push (s : SeriesData V) (t : ℚ) (value : Option V) : SeriesData V :=
  { s with t := s.t ++ [t], v := s.v ++ [value] }

/-- `appendLive`. -/
def appendLive (s : SeriesData V) (t : ℚ) (value : Option V) (minGap : ℚ) : SeriesData V :=
  let last := s.t.length - 1
  match s.t.getLast? with
  | none => s.push t value
  | some lastT =>
    if t < lastT then s
    else if t = lastT then { s with v := s.v.set last value }
    else if s.liveFrom ≤ last ∧ t - lastT < minGap then
      { s with t := s.t.set last t, v := s.v.set last value }
    else s.push t value

/-- `trimBefore`. -/
def trimBefore (s : SeriesData V) (minT : ℚ) : SeriesData V :=
  let cut := (s.t.takeWhile (· < minT)).length
  { t := s.t.drop cut, v := s.v.drop cut, liveFrom := s.liveFrom - cut }

/-- `lastPoint`. -/
def lastPoint (s : SeriesData V) : Option (ℚ × Option V) :=
  s.t.getLast?.map fun t ↦ (t, s.v[s.t.length - 1]?.join)

/-- The instants that have come in real time. -/
def live (s : SeriesData V) : List ℚ := s.t.drop s.liveFrom

end SeriesData

/-- What is done with a series. -/
inductive Op (V : Type)
  | append (t : ℚ) (value : Option V)
  | trim (minT : ℚ)

def SeriesData.step (minGap : ℚ) (s : SeriesData V) : Op V → SeriesData V
  | .append t value => s.appendLive t value minGap
  | .trim minT => s.trimBefore minT

def SeriesData.run (minGap : ℚ) (s : SeriesData V) (ops : List (Op V)) : SeriesData V :=
  ops.foldl (step minGap) s

/-- Whether an instant is left. -/
def Op.leaves (t : ℚ) : Op V → Bool
  | append _ _ => true
  | trim minT => minT ≤ t

/-- The instants that are not yet trimmed. -/
def untrimmed (instants : List ℚ) (ops : List (Op V)) : List ℚ :=
  instants.filter fun t ↦ ops.all (Op.leaves t)

/-- The series whose instants of the history are these. -/
structure Sound (minGap : ℚ) (history : List ℚ) (s : SeriesData V) : Prop where
  increasing : s.t.Pairwise (· < ·)
  length_eq : s.v.length = s.t.length
  liveFrom_le : s.liveFrom ≤ s.t.length
  history_eq : s.t.take s.liveFrom = history
  spaced : Increasing.Spaced minGap s.live

variable {s : SeriesData V} {t minGap minT : ℚ} {value : Option V} {front history : List ℚ}

/-! ## One sample -/

/-- **What a sample does**: nothing where it is older than the last point; it replaces the value at
the last instant; it moves the last point where this one is recent and has come in real time; it
comes after the others. -/
theorem appendLive_cases (s : SeriesData V) (t : ℚ) (value : Option V) (minGap : ℚ) :
    (∃ front lastT, s.t = front ++ [lastT] ∧ t < lastT ∧ s.appendLive t value minGap = s) ∨
    (∃ front, s.t = front ++ [t] ∧
      s.appendLive t value minGap = { s with v := s.v.set front.length value }) ∨
    (∃ front lastT, s.t = front ++ [lastT] ∧ lastT < t ∧ s.liveFrom ≤ front.length ∧
      t - lastT < minGap ∧ s.appendLive t value minGap =
        { s with t := front ++ [t], v := s.v.set front.length value }) ∨
    ((∀ front lastT, s.t = front ++ [lastT] →
      lastT < t ∧ (s.liveFrom ≤ front.length → minGap ≤ t - lastT)) ∧
      s.appendLive t value minGap = s.push t value) := by
  rcases List.eq_nil_or_concat' s.t with hnil | ⟨front, lastT, hfront⟩
  · refine .inr (.inr (.inr ⟨fun front lastT heq ↦ ?_, ?_⟩))
    · rw [hnil] at heq
      exact absurd heq.symm (List.append_ne_nil_of_right_ne_nil _ (List.cons_ne_nil _ _))
    · rw [SeriesData.appendLive, hnil]
      rfl
  have hindex : s.t.length - 1 = front.length := by
    rw [hfront, List.length_append, List.length_singleton, Nat.add_sub_cancel]
  have hset : s.t.set front.length t = front ++ [t] := by
    rw [hfront, List.set_append_right _ _ (Nat.le_refl _), Nat.sub_self, List.set_cons_zero]
  rw [SeriesData.appendLive, hindex, hset, hfront, List.getLast?_concat]
  dsimp only
  by_cases hlt : t < lastT
  · exact .inl ⟨front, lastT, rfl, hlt, if_pos hlt⟩
  rw [if_neg hlt]
  by_cases heq : t = lastT
  · subst heq
    exact .inr (.inl ⟨front, rfl, if_pos rfl⟩)
  rw [if_neg heq]
  have hgt : lastT < t := lt_of_le_of_ne (not_lt.mp hlt) (Ne.symm heq)
  by_cases hsoon : s.liveFrom ≤ front.length ∧ t - lastT < minGap
  · exact .inr (.inr (.inl ⟨front, lastT, rfl, hgt, hsoon.1, hsoon.2, if_pos hsoon⟩))
  · refine .inr (.inr (.inr ⟨fun front' lastT' hlast ↦ ?_, if_neg hsoon⟩))
    obtain ⟨rfl, rfl⟩ := List.append_singleton_inj.mp hlast
    exact ⟨hgt, fun hlive ↦ not_lt.mp fun hlt ↦ hsoon ⟨hlive, hlt⟩⟩

theorem drop_concat (h : k ≤ front.length) (x : ℚ) :
    (front ++ [x]).drop k = front.drop k ++ [x] := List.drop_append_of_le_length h

/-- The instants increase, and so they do with one that is later than the last. -/
theorem pairwise_concat (h : front.Pairwise (· < ·)) (hlater : ∀ x ∈ front, x < t) :
    (front ++ [t]).Pairwise (· < ·) := by
  refine List.pairwise_append.mpr ⟨h, List.pairwise_singleton _ _, fun x hx y hy ↦ ?_⟩
  rw [List.mem_singleton.mp hy]
  exact hlater x hx

theorem Sound.move (h : Sound minGap history s) {lastT : ℚ} (hfront : s.t = front ++ [lastT])
    (hlt : lastT < t) (hlive : s.liveFrom ≤ front.length) :
    Sound minGap history { s with t := front ++ [t], v := s.v.set front.length value } := by
  obtain ⟨hincreasing, hlength, hle, hhistory, hspaced⟩ := h
  rw [SeriesData.live, hfront, drop_concat hlive] at hspaced
  rw [hfront] at hincreasing hlength hhistory
  obtain ⟨hfrontIncreasing, -, hbefore⟩ := List.pairwise_append.mp hincreasing
  obtain ⟨hchain, -, hjoin⟩ := List.isChain_append.mp hspaced
  refine ⟨?_, (List.length_set ..).trans ?_, ?_, ?_, ?_⟩
  · exact pairwise_concat hfrontIncreasing fun x hx ↦
      (hbefore x hx lastT (List.mem_singleton_self _)).trans hlt
  · rw [hlength, List.length_append, List.length_append]
    rfl
  · rw [List.length_append]
    exact hlive.trans (Nat.le_add_right _ _)
  · rw [← hhistory, List.take_append_of_le_length hlive, List.take_append_of_le_length hlive]
  · rw [SeriesData.live, drop_concat hlive]
    refine List.isChain_append.mpr ⟨hchain, List.isChain_singleton _, ?_⟩
    intro x hx y hy
    obtain rfl := Option.some.inj hy
    have hgap : minGap ≤ lastT - x := hjoin x hx lastT rfl
    linarith

/-- A point comes after the others, at `minGap` at least of the last one where this one is live. -/
theorem Sound.push (h : Sound minGap history s)
    (hlast : ∀ front lastT, s.t = front ++ [lastT] →
      lastT < t ∧ (s.liveFrom ≤ front.length → minGap ≤ t - lastT)) :
    Sound minGap history (s.push t value) := by
  obtain ⟨hincreasing, hlength, hle, hhistory, hspaced⟩ := h
  rw [SeriesData.live] at hspaced
  rw [SeriesData.push]
  refine ⟨?_, ?_, ?_, ?_, ?_⟩
  · refine pairwise_concat hincreasing fun x hx ↦ ?_
    rcases List.eq_nil_or_concat' s.t with hnil | ⟨front, lastT, hfront⟩
    · rw [hnil] at hx
      exact absurd hx List.not_mem_nil
    · have hlt := (hlast front lastT hfront).1
      rw [hfront] at hx hincreasing
      exact (Increasing.le_of_mem_concat hincreasing hx).trans_lt hlt
  · rw [List.length_append, List.length_append, hlength]
    rfl
  · rw [List.length_append]
    exact hle.trans (Nat.le_add_right _ _)
  · rw [← hhistory, List.take_append_of_le_length hle]
  · rw [SeriesData.live, drop_concat hle]
    refine List.isChain_append.mpr ⟨hspaced, List.isChain_singleton _, ?_⟩
    intro x hx y hy
    obtain rfl := Option.some.inj hy
    -- the last live instant is the last one
    rcases List.eq_nil_or_concat' s.t with hnil | ⟨front, lastT, hfront⟩
    · rw [hnil, List.drop_nil] at hx
      exact absurd hx (Option.not_mem_none x)
    · rcases Nat.lt_or_ge front.length s.liveFrom with hlt | hlive
      · have hdrop : s.t.drop s.liveFrom = [] := by
          refine List.drop_eq_nil_of_le ?_
          rw [hfront, List.length_append, List.length_singleton]
          exact hlt
        rw [hdrop] at hx
        exact absurd hx (Option.not_mem_none x)
      · rw [hfront, drop_concat hlive, List.getLast?_concat] at hx
        obtain rfl := Option.some.inj hx
        exact (hlast front lastT hfront).2 hlive

/-- **Step lemma.** -/
theorem Sound.appendLive (h : Sound minGap history s) :
    Sound minGap history (s.appendLive t value minGap) := by
  rcases appendLive_cases s t value minGap with ⟨front, lastT, -, -, hout⟩ | ⟨front, -, hout⟩ |
    ⟨front, lastT, hfront, hlt, hlive, -, hout⟩ | ⟨hlast, hout⟩
  · rw [hout]
    exact h
  · rw [hout]
    exact ⟨h.increasing, (List.length_set ..).trans h.length_eq, h.liveFrom_le, h.history_eq,
      h.spaced⟩
  · rw [hout]
    exact h.move hfront hlt hlive
  · rw [hout]
    exact h.push hlast

/-! ## Trimming -/

/-- **Step lemma.** -/
theorem Sound.trimBefore (h : Sound minGap history s) :
    Sound minGap (history.filter (minT ≤ ·)) (s.trimBefore minT) := by
  obtain ⟨hincreasing, hlength, hle, hhistory, hspaced⟩ := h
  rw [SeriesData.trimBefore]
  refine ⟨hincreasing.drop, ?_, ?_, ?_, ?_⟩
  · rw [List.length_drop, List.length_drop, hlength]
  · rw [List.length_drop]
    exact Nat.sub_le_sub_right hle _
  · dsimp only
    rw [← List.drop_take, Increasing.drop_length_takeWhile_take, ← hhistory]
    exact Increasing.dropWhile_lt_eq_filter hincreasing.take minT
  · rw [SeriesData.live]
    dsimp only
    rw [List.drop_drop]
    refine List.IsChain.suffix hspaced (List.drop_suffix_drop_left _ ?_)
    omega

theorem t_trimBefore : (s.trimBefore minT).t = s.t.dropWhile (· < minT) := by
  have hall := Increasing.drop_length_takeWhile_take (· < minT) s.t s.t.length
  rwa [List.take_length] at hall

theorem mem_trimBefore (hincreasing : s.t.Pairwise (· < ·)) {x : ℚ} :
    x ∈ (s.trimBefore minT).t ↔ x ∈ s.t ∧ minT ≤ x := by
  rw [t_trimBefore, Increasing.dropWhile_lt_eq_filter hincreasing, List.mem_filter,
    decide_eq_true_iff]

/-! ## Runs -/

theorem sound_historyToSeries (parse : String → Option ℚ) (items : List (HistoryItem V)) :
    Sound minGap (historyToSeries parse items).t (historyToSeries parse items) := by
  refine ⟨?_, List.length_map _, Nat.le_refl _, List.take_length, ?_⟩
  · exact Increasing.pairwise_lt_mergeSort (pointsOf parse items).nodup
  · rw [SeriesData.live]
    exact (List.drop_length : (historyToSeries parse items).t.drop _ = []) ▸ List.isChain_nil

theorem sound_foldl {instants : List ℚ} (ops : List (Op V)) (h : Sound minGap instants s) :
    Sound minGap (untrimmed instants ops) (s.run minGap ops) := by
  induction ops using List.reverseRecOn with
  | nil => simpa [untrimmed, SeriesData.run] using h
  | append_singleton ops op ih =>
    rw [SeriesData.run, List.foldl_append]
    have hfilter : untrimmed instants (ops ++ [op]) =
        (untrimmed instants ops).filter (Op.leaves · op) := by
      rw [untrimmed, untrimmed, List.filter_filter]
      refine List.filter_congr fun t _ ↦ ?_
      rw [List.all_append, List.all_cons, List.all_nil, Bool.and_true, Bool.and_comm]
    rw [hfilter]
    cases op with
    | append t value =>
      have hall : (untrimmed instants ops).filter (Op.leaves · (.append t value)) =
          untrimmed instants ops := List.filter_eq_self.mpr fun _ _ ↦ rfl
      rw [hall]
      exact ih.appendLive
    | trim minT => exact ih.trimBefore

/-- A window of length `w`, where no instant is later than `now`, holds few live instants. -/
def FewLive (minGap : ℚ) (s : SeriesData V) : Prop :=
  ∀ now w, (∀ t ∈ s.t, t ≤ now) →
    (s.trimBefore (now - w)).live.length ≤ ⌊w / minGap⌋₊ + 1

theorem Sound.fewLive (h : Sound minGap history s) (hgap : 0 < minGap) : FewLive minGap s := by
  intro now w hnow
  have hmem : ∀ x ∈ (s.trimBefore (now - w)).live, x ∈ s.t ∧ now - w ≤ x := fun x hx ↦
    (mem_trimBefore h.increasing).mp (List.mem_of_mem_drop hx)
  have hcount := h.trimBefore.spaced.length_le hgap (fun x hx ↦ (hmem x hx).2)
    (fun x hx ↦ hnow x (hmem x hx).1)
  rwa [sub_sub_cancel] at hcount

/-- **A series stays sound**: its instants increase, each with a value; those of the history are
the ones not yet trimmed; the others are spaced, and few in a window. -/
theorem sound_series (parse : String → Option ℚ) (items : List (HistoryItem V)) (minGap : ℚ)
    (hgap : 0 < minGap) (ops : List (Op V)) :
    Sound minGap (untrimmed (historyToSeries parse items).t ops)
      ((historyToSeries parse items).run minGap ops) ∧
    FewLive minGap ((historyToSeries parse items).run minGap ops) := by
  have hsound : Sound minGap (untrimmed (historyToSeries parse items).t ops)
      ((historyToSeries parse items).run minGap ops) :=
    sound_foldl ops (sound_historyToSeries parse items)
  exact ⟨hsound, hsound.fewLive hgap⟩

/-- A history of one instant, and its date. -/
def epoch : List (HistoryItem ℕ) := [⟨"1970-01-01T00:00:00Z", some 1⟩]

def parseEpoch (ts : String) : Option ℚ := if ts = "1970-01-01T00:00:00Z" then some 0 else none

/-- Three samples, the last of which moves the second, and a window that leaves the history. -/
def threeSamples : List (Op ℕ) :=
  [.append 5 (some 1), .append 70 (some 2), .append 80 none, .trim 3]

theorem sound_series_threeSamples :
    Sound 60 (untrimmed (historyToSeries parseEpoch epoch).t threeSamples)
      ((historyToSeries parseEpoch epoch).run 60 threeSamples) ∧
    FewLive 60 ((historyToSeries parseEpoch epoch).run 60 threeSamples) :=
  sound_series parseEpoch epoch 60 (by norm_num) threeSamples

end Superviseur.Trend
