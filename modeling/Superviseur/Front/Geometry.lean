import Mathlib.Data.Rat.Floor
import Mathlib.Data.List.Sort

/-!
# Geometry of the editor

Magnetism, alignment and distribution of rectangles. Coordinates are exact.
-/

namespace Superviseur.Editor

structure Rect where
  x : ℚ
  y : ℚ
  w : ℚ
  h : ℚ
  deriving DecidableEq

/-- `Math.round`. -/
def round (q : ℚ) : ℚ := ⌊q + 1 / 2⌋

def snap (value grid : ℚ) : ℚ := if 0 < grid then round (value / grid) * grid else value

def boundsOf : List Rect → Option Rect
  | [] => none
  | r :: rects =>
    let left := rects.foldl (fun m s ↦ min m s.x) r.x
    let top := rects.foldl (fun m s ↦ min m s.y) r.y
    let right := rects.foldl (fun m s ↦ max m (s.x + s.w)) (r.x + r.w)
    let bottom := rects.foldl (fun m s ↦ max m (s.y + s.h)) (r.y + r.h)
    some { x := left, y := top, w := right - left, h := bottom - top }

def intersects (a b : Rect) : Bool :=
  a.x < b.x + b.w && a.x + a.w > b.x && a.y < b.y + b.h && a.y + a.h > b.y

inductive AlignMode
  | left
  | center
  | right
  | top
  | middle
  | bottom

/-- A rectangle on the side, or in the middle, of a box. -/
def Rect.aligned (box r : Rect) : AlignMode → Rect
  | .left => { r with x := box.x }
  | .center => { r with x := box.x + (box.w - r.w) / 2 }
  | .right => { r with x := box.x + box.w - r.w }
  | .top => { r with y := box.y }
  | .middle => { r with y := box.y + (box.h - r.h) / 2 }
  | .bottom => { r with y := box.y + box.h - r.h }

def alignRects (rects : List Rect) (mode : AlignMode) : List Rect :=
  match boundsOf rects with
  | none => rects
  | some box => if rects.length < 2 then rects else rects.map (box.aligned · mode)

inductive Axis
  | horizontal
  | vertical

namespace Axis

def start : Axis → Rect → ℚ
  | horizontal, r => r.x
  | vertical, r => r.y

def size : Axis → Rect → ℚ
  | horizontal, r => r.w
  | vertical, r => r.h

/-- The rectangle, moved along the axis. -/
def place : Axis → Rect → ℚ → Rect
  | horizontal, r, cursor => { r with x := cursor }
  | vertical, r, cursor => { r with y := cursor }

end Axis

/-- The rectangles at their places, each after the other and a gap, in the order of their
indices. -/
def spread (axis : Axis) (gap : ℚ) : List ℕ → ℚ → List Rect → List Rect
  | [], _, result => result
  | i :: order, cursor, result =>
    match result[i]? with
    | none => spread axis gap order cursor result
    | some r =>
      spread axis gap order (cursor + (axis.size r + gap)) (result.set i (axis.place r cursor))

/-- The rectangles at regular intervals, between the first and the last. The sort is stable. -/
def distributeRects (rects : List Rect) (axis : Axis) : List Rect :=
  if rects.length < 3 then rects
  else
    let startOf i := (rects[i]?.map axis.start).getD 0
    let order := (List.range rects.length).insertionSort fun i j ↦ startOf i ≤ startOf j
    match order.head?.bind (rects[·]?), order.getLast?.bind (rects[·]?) with
    | some first, some last =>
      let start := axis.start first
      let total := (rects.map axis.size).sum
      let gap := (axis.start last + axis.size last - start - total) / (rects.length - 1)
      spread axis gap order start rects
    | _, _ => rects

end Superviseur.Editor
