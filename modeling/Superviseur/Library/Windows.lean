import Mathlib.Algebra.Order.Monoid.Defs
import Mathlib.Data.List.Basic

/-!
# Events in a sliding window

A list of dates has at most `n` of them in any window of length `w`, where a window is a half-open
interval `[t, t + w)`. The property is kept by a date that follows fewer than `n` others by less
than `w`; for `n = 1` it says that no date follows another by less than `w`.
-/

namespace Windows

variable {α : Type*} [Add α] [LinearOrder α]

/-- The dates of `xs` in `[t, t + w)`. -/
def within (t w : α) (xs : List α) : List α := xs.filter fun x ↦ t ≤ x ∧ x < t + w

/-- No window of length `w` has more than `n` dates of `xs`. -/
def AtMost (n : ℕ) (w : α) (xs : List α) : Prop := ∀ t, (within t w xs).length ≤ n

variable {n : ℕ} {w now x : α} {xs ys : List α}

theorem atMost_nil (n : ℕ) (w : α) : AtMost n w [] := fun _ ↦ Nat.zero_le n

theorem AtMost.sublist (h : AtMost n w ys) (hsub : xs.Sublist ys) : AtMost n w xs :=
  fun t ↦ ((hsub.filter _).length_le).trans (h t)

/-- A date that fewer than `n` others precede by less than `w` can be added. -/
theorem AtMost.append [AddRightMono α] (h : AtMost n w xs)
    (hcount : (xs.filter fun x ↦ now < x + w).length < n) : AtMost n w (xs ++ [now]) := by
  intro t
  rw [within, List.filter_append, List.length_append]
  by_cases hnow : t ≤ now ∧ now < t + w
  · -- the dates of this window all precede `now` by less than `w`
    have hsub : (xs.filter fun x ↦ t ≤ x ∧ x < t + w).length
        ≤ (xs.filter fun x ↦ now < x + w).length := by
      refine (List.monotone_filter_right xs fun x hx ↦ ?_).length_le
      rw [decide_eq_true_iff] at hx ⊢
      exact hnow.2.trans_le (add_le_add_left hx.1 w)
    rw [List.filter_cons_of_pos (by simpa using hnow), List.filter_nil, List.length_singleton]
    omega
  · rw [List.filter_cons_of_neg (by simpa using hnow), List.filter_nil, List.length_nil]
    exact h t

/-- One date a window: a date that follows the others by `w` at least can be added. -/
theorem AtMost.append_of_spaced [AddRightMono α] (h : AtMost 1 w xs)
    (hspaced : ∀ x ∈ xs, x + w ≤ now) : AtMost 1 w (xs ++ [now]) := by
  refine h.append ?_
  rw [List.filter_eq_nil_iff.mpr fun x hx ↦ ?_]
  · exact Nat.one_pos
  · simpa using hspaced x hx

theorem not_atMost_one (hx : x ∈ xs) (hle : x ≤ now) (hlt : now < x + w) :
    ¬ AtMost 1 w (xs ++ [now]) := by
  intro h
  have hcount := h x
  have hself : x ∈ within x w xs :=
    List.mem_filter.mpr ⟨hx, decide_eq_true ⟨le_rfl, hle.trans_lt hlt⟩⟩
  rw [within, List.filter_append, List.length_append,
    List.filter_cons_of_pos (by simpa using And.intro hle hlt)] at hcount
  have hpos := List.length_pos_of_mem hself
  rw [within] at hpos
  simp only [List.filter_nil, List.length_singleton] at hcount
  omega

end Windows
