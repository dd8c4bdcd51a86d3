import Superviseur.Front.Geometry
import Mathlib.Tactic.Linarith

/-!
# Resizing a rectangle

A handle drags one edge, or two at a corner. `resizeRect` fits a dragged edge to the grid and keeps
a minimum size, on both axes: a rectangle that is thinner than the minimum on the axis that is not
dragged is widened there, and its right or bottom edge moves though no handle names it.

On each axis, the edges move as they should if and only if the handle drags one of them or the
rectangle has the minimum size (`Dragged.iff`).
-/

namespace Superviseur.Editor

/-- `MIN_SIZE`. -/
def minSize : ℚ := 8

inductive Handle
  | nw
  | n
  | ne
  | e
  | se
  | s
  | sw
  | w
  deriving DecidableEq

/-- `handle.includes`. -/
def Handle.includes (handle : Handle) (side : Char) : Bool :=
  (match handle with
    | nw => ['n', 'w']
    | n => ['n']
    | ne => ['n', 'e']
    | e => ['e']
    | se => ['s', 'e']
    | s => ['s']
    | sw => ['s', 'w']
    | w => ['w']).contains side

/-- The edges of one axis, either of which may be dragged. The minimum size moves the first edge if
it is dragged, and the second one otherwise. -/
def dragAxis (first second : Bool) (lo hi delta grid : ℚ) : ℚ × ℚ :=
  let lo := if first then snap (lo + delta) grid else lo
  let hi := if second then snap (hi + delta) grid else hi
  if hi - lo < minSize then if first then (hi - minSize, hi) else (lo, lo + minSize) else (lo, hi)

def resizeRect (rect : Rect) (handle : Handle) (dx dy grid : ℚ) : Rect :=
  let x := dragAxis (handle.includes 'w') (handle.includes 'e') rect.x (rect.x + rect.w) dx grid
  let y := dragAxis (handle.includes 'n') (handle.includes 's') rect.y (rect.y + rect.h) dy grid
  { x := x.1, y := y.1, w := x.2 - x.1, h := y.2 - y.1 }

/-- What dragging does to the edges of one axis. -/
structure Dragged (first second : Bool) (lo hi delta grid lo' hi' : ℚ) : Prop where
  /-- An edge that is not dragged stays where it is. -/
  first_eq : first = false → lo' = lo
  second_eq : second = false → hi' = hi
  size : first = true ∨ second = true → minSize ≤ hi' - lo'
  /-- A dragged edge is at its place on the grid, where that leaves the minimum size. -/
  first_snapped : first = true → minSize ≤ hi - snap (lo + delta) grid →
    lo' = snap (lo + delta) grid
  second_snapped : second = true → minSize ≤ snap (hi + delta) grid - lo →
    hi' = snap (hi + delta) grid

/-- Only the edges that the handle names have moved. -/
def OnlyDragged (rect : Rect) (handle : Handle) (dx dy grid : ℚ) (out : Rect) : Prop :=
  Dragged (handle.includes 'w') (handle.includes 'e') rect.x (rect.x + rect.w) dx grid
    out.x (out.x + out.w) ∧
  Dragged (handle.includes 'n') (handle.includes 's') rect.y (rect.y + rect.h) dy grid
    out.y (out.y + out.h)

namespace Dragged

variable {lo hi delta grid : ℚ}

theorem of_first : Dragged true false lo hi delta grid (dragAxis true false lo hi delta grid).1
    (dragAxis true false lo hi delta grid).2 := by
  simp only [dragAxis, if_true, Bool.false_eq_true, if_false]
  split
  · rename_i hlt
    refine ⟨nofun, fun _ ↦ rfl, fun _ ↦ ?_, fun _ hle ↦ absurd hlt (not_lt.mpr hle), nofun⟩
    rw [sub_sub_cancel]
  · rename_i hle
    exact ⟨nofun, fun _ ↦ rfl, fun _ ↦ not_lt.mp hle, fun _ _ ↦ rfl, nofun⟩

theorem of_second : Dragged false true lo hi delta grid (dragAxis false true lo hi delta grid).1
    (dragAxis false true lo hi delta grid).2 := by
  simp only [dragAxis, if_true, Bool.false_eq_true, if_false]
  split
  · rename_i hlt
    refine ⟨fun _ ↦ rfl, nofun, fun _ ↦ ?_, nofun, fun _ hle ↦ absurd hlt (not_lt.mpr hle)⟩
    rw [add_sub_cancel_left]
  · rename_i hle
    exact ⟨fun _ ↦ rfl, nofun, fun _ ↦ not_lt.mp hle, nofun, fun _ _ ↦ rfl⟩

/-- An axis that is not dragged stays as it is where it has the minimum size. -/
theorem none_iff : Dragged false false lo hi delta grid (dragAxis false false lo hi delta grid).1
    (dragAxis false false lo hi delta grid).2 ↔ minSize ≤ hi - lo := by
  simp only [dragAxis, Bool.false_eq_true, if_false]
  split
  · rename_i hlt
    constructor
    · intro h
      have heq : lo + minSize = hi := h.second_eq rfl
      linarith
    · exact fun hle ↦ absurd hlt (not_lt.mpr hle)
  · rename_i hle
    exact ⟨fun _ ↦ not_lt.mp hle,
      fun _ ↦ ⟨fun _ ↦ rfl, fun _ ↦ rfl, fun h ↦ by simp at h, nofun, nofun⟩⟩

/-- **One axis.** -/
theorem iff {first second : Bool} (hone : ¬(first = true ∧ second = true)) :
    Dragged first second lo hi delta grid (dragAxis first second lo hi delta grid).1
      (dragAxis first second lo hi delta grid).2 ↔
      first = true ∨ second = true ∨ minSize ≤ hi - lo := by
  cases first with
  | true =>
    cases second with
    | true => exact absurd ⟨rfl, rfl⟩ hone
    | false => exact ⟨fun _ ↦ .inl rfl, fun _ ↦ of_first⟩
  | false =>
    cases second with
    | true => exact ⟨fun _ ↦ .inr (.inl rfl), fun _ ↦ of_second⟩
    | false => simp [none_iff]

end Dragged

theorem Handle.one_of_two (handle : Handle) :
    ¬(handle.includes 'w' = true ∧ handle.includes 'e' = true) ∧
      ¬(handle.includes 'n' = true ∧ handle.includes 's' = true) := by
  cases handle <;> decide

/-- **When only the dragged edges move**: on each axis, the handle drags an edge, or the rectangle
has the minimum size. -/
theorem onlyDragged_iff (rect : Rect) (handle : Handle) (dx dy grid : ℚ) :
    OnlyDragged rect handle dx dy grid (resizeRect rect handle dx dy grid) ↔
      (handle.includes 'w' = true ∨ handle.includes 'e' = true ∨ minSize ≤ rect.w) ∧
        (handle.includes 'n' = true ∨ handle.includes 's' = true ∨ minSize ≤ rect.h) := by
  obtain ⟨hx, hy⟩ := handle.one_of_two
  rw [OnlyDragged, resizeRect]
  dsimp only
  rw [add_sub_cancel, add_sub_cancel, Dragged.iff hx, Dragged.iff hy, add_sub_cancel_left,
    add_sub_cancel_left]

/-- **The upper edge of a thin rectangle is dragged, and its right edge moves.** -/
theorem not_onlyDragged : ¬∀ (rect : Rect) (handle : Handle) (dx dy grid : ℚ), 1 ≤ rect.w →
    1 ≤ rect.h → 0 ≤ grid →
      OnlyDragged rect handle dx dy grid (resizeRect rect handle dx dy grid) := by
  intro h
  have hthin := (h ⟨0, 0, 4, 100⟩ .n 0 (-10) 0 (by decide) (by decide) (by decide)).1.second_eq rfl
  exact absurd hthin (by decide +kernel)

end Superviseur.Editor
