import Mathlib.Algebra.Order.Floor.Semiring
import Mathlib.Algebra.Order.Field.Basic
import Mathlib.Data.List.Sort
import Mathlib.Data.List.TakeWhile
import Mathlib.Data.Nat.Cast.Order.Ring
import Mathlib.Tactic.Linarith

/-!
# Increasing lists of instants

What is dropped from the front of an increasing list by a lower bound, what its last instant is, and
how many instants an interval holds when each follows the one before by a gap.
-/

namespace Increasing

/-! ## Lower bounds -/

section

variable {α : Type*} [LinearOrder α] {xs : List α}

theorem dropWhile_lt_eq_filter (h : xs.Pairwise (· < ·)) (m : α) :
    xs.dropWhile (· < m) = xs.filter (m ≤ ·) := by
  induction xs with
  | nil => rfl
  | cons x xs ih =>
    obtain ⟨hx, hxs⟩ := List.pairwise_cons.mp h
    by_cases hlt : x < m
    · rw [List.dropWhile_cons_of_pos (by simpa using hlt),
        List.filter_cons_of_neg (by simpa using hlt), ih hxs]
    · have hle := not_lt.mp hlt
      have hall : ∀ y ∈ x :: xs, m ≤ y :=
        List.forall_mem_cons.mpr ⟨hle, fun y hy ↦ hle.trans (hx y hy).le⟩
      rw [List.dropWhile_cons_of_neg (by simpa using hlt),
        List.filter_eq_self.mpr fun y hy ↦ decide_eq_true (hall y hy)]

/-- What is dropped from the whole list, dropped from its first elements. -/
theorem drop_length_takeWhile_take {β : Type*} (p : β → Bool) (xs : List β) (k : ℕ) :
    (xs.take k).drop (xs.takeWhile p).length = (xs.take k).dropWhile p := by
  induction xs generalizing k with
  | nil => simp
  | cons x xs ih =>
    cases k with
    | zero => simp
    | succ k =>
      by_cases hx : p x = true
      · rw [List.takeWhile_cons_of_pos hx, List.take_succ_cons, List.dropWhile_cons_of_pos hx,
          List.length_cons, List.drop_succ_cons, ih]
      · rw [List.takeWhile_cons_of_neg hx, List.take_succ_cons, List.dropWhile_cons_of_neg hx,
          List.length_nil, List.drop_zero]

/-! ## The last instant -/

theorem le_of_mem_concat {x last : α} (h : (xs ++ [last]).Pairwise (· < ·))
    (hx : x ∈ xs ++ [last]) : x ≤ last := by
  rcases List.mem_append.mp hx with hx | hx
  · exact ((List.pairwise_append.mp h).2.2 x hx last (List.mem_singleton_self _)).le
  · exact (List.mem_singleton.mp hx).le

theorem pairwise_lt_mergeSort (h : xs.Nodup) :
    (xs.mergeSort fun a b ↦ decide (a ≤ b)).Pairwise (· < ·) := by
  have hle := List.pairwise_mergeSort' (· ≤ ·) xs
  have hnodup := (List.mergeSort_perm xs fun a b ↦ decide (a ≤ b)).nodup_iff.mpr h
  exact (hle.and hnodup).imp fun h ↦ lt_of_le_of_ne h.1 h.2

end

/-! ## Gaps -/

section

variable {α : Type*} [Field α] [LinearOrder α]

/-- Each instant follows the one before by a gap at least. -/
def Spaced (gap : α) (xs : List α) : Prop := xs.IsChain fun a b ↦ gap ≤ b - a

/-- Each instant follows the one before by a gap at most. -/
def Dense (gap : α) (xs : List α) : Prop := xs.IsChain fun a b ↦ b - a ≤ gap

instance decidableDense (gap : α) (xs : List α) : Decidable (Dense gap xs) :=
  inferInstanceAs (Decidable (List.IsChain _ xs))

variable [IsStrictOrderedRing α] {gap lo hi x : α} {xs : List α}

theorem Spaced.add_mul_le (h : Spaced gap (x :: xs)) (hhi : ∀ y ∈ x :: xs, y ≤ hi) :
    x + xs.length * gap ≤ hi := by
  induction xs generalizing x with
  | nil => simpa using hhi
  | cons y xs ih =>
    obtain ⟨hxy, hrest⟩ := List.isChain_cons_cons.mp h
    have hlast := ih hrest (List.forall_mem_cons.mp hhi).2
    rw [List.length_cons, Nat.cast_add_one]
    linarith

/-- **Spaced instants are few in an interval.** -/
theorem Spaced.length_le [FloorSemiring α] (h : Spaced gap xs) (hgap : 0 < gap)
    (hlo : ∀ x ∈ xs, lo ≤ x) (hhi : ∀ x ∈ xs, x ≤ hi) :
    xs.length ≤ ⌊(hi - lo) / gap⌋₊ + 1 := by
  cases xs with
  | nil => exact Nat.zero_le _
  | cons x xs =>
    have hlast := h.add_mul_le hhi
    have hfirst := hlo x List.mem_cons_self
    refine Nat.succ_le_succ (Nat.le_floor ?_)
    rw [le_div_iff₀ hgap]
    linarith

end

end Increasing
