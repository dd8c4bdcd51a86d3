import Mathlib.Data.List.Nodup

/-!
# Loops over objects in memory

A loop takes one item after the other, and each step writes some cells of a memory. A cell that no
step writes is what it was. Where no two steps write the same cell, a cell is what the only step
that writes it leaves there, and that step finds the cells that no other step writes as they were
before the loop. Which cells a step writes may depend on the memory, through what an invariant says
of it.
-/

namespace Objects

variable {σ ι γ β : Type*}

/-- From a memory that satisfies `I`, a step leaves the cells that it does not write, and `I`. -/
structure Frame (I : σ → Prop) (read : σ → ι → γ) (step : σ → β → σ) (writes : β → ι → Prop) :
    Prop where
  keeps : ∀ s x, I s → I (step s x)
  unwritten : ∀ s x i, I s → ¬ writes x i → read (step s x) i = read s i

namespace Frame

variable {I : σ → Prop} {read : σ → ι → γ} {step : σ → β → σ} {writes : β → ι → Prop}
  (h : Frame I read step writes) {xs : List β} {x : β} {s : σ} {i : ι}
include h

theorem keeps_foldl (xs : List β) (hs : I s) : I (xs.foldl step s) := by
  induction xs generalizing s with
  | nil => exact hs
  | cons x xs ih => exact ih (h.keeps s x hs)

theorem foldl_unwritten (hs : I s) (hi : ∀ x ∈ xs, ¬ writes x i) :
    read (xs.foldl step s) i = read s i := by
  induction xs generalizing s with
  | nil => rfl
  | cons x xs ih =>
    rw [List.foldl_cons, ih (h.keeps s x hs) (fun y hy ↦ hi y (List.mem_cons_of_mem x hy)),
      h.unwritten s x i hs (hi x List.mem_cons_self)]

/-- **What a loop leaves in a cell that one step writes**, and the memory this step starts from. -/
theorem foldl_written (hs : I s) (hdisjoint : xs.Pairwise fun x y ↦ ∀ i, writes x i → ¬ writes y i)
    (hx : x ∈ xs) (hi : writes x i) : ∃ t, I t ∧
      (∀ j, (∀ y ∈ xs, writes y j → writes x j) → read t j = read s j) ∧
      read (xs.foldl step s) i = read (step t x) i := by
  obtain ⟨before, after, rfl⟩ := List.append_of_mem hx
  obtain ⟨-, hafter, hbefore⟩ := List.pairwise_append.mp hdisjoint
  refine ⟨before.foldl step s, h.keeps_foldl before hs, fun j hj ↦ ?_, ?_⟩
  · refine h.foldl_unwritten hs fun y hy hwrites ↦ ?_
    exact hbefore y hy x List.mem_cons_self j hwrites (hj y (List.mem_append_left _ hy) hwrites)
  · rw [List.foldl_append, List.foldl_cons]
    exact h.foldl_unwritten (h.keeps _ x (h.keeps_foldl before hs)) fun y hy ↦
      List.rel_of_pairwise_cons hafter hy i hi

end Frame

end Objects
