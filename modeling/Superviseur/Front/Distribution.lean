import Superviseur.Front.Geometry
import Superviseur.Library.Leading
import Mathlib.Algebra.BigOperators.Group.List.Basic
import Mathlib.Tactic.FieldSimp
import Mathlib.Tactic.Linarith
import Mathlib.Tactic.Ring

/-!
# Rectangles at regular intervals

`distributeRects` leaves the first and the last rectangle of the axis where they are and makes the
gaps between them equal, which says where all of them go. Each one starts after the one before it by
the size of this one and the gap: its step. Where rectangles overlap the gap may be negative, and so
may be the step of a rectangle that is smaller than the others; the next one is then placed before
it. The order, the space between both ends and a second distribution depend on the signs of the
steps (`distributed`).
-/

namespace Superviseur.Editor

namespace Axis

variable (axis : Axis) (r : Rect) (c d : ℚ)

@[simp] theorem start_place : axis.start (axis.place r c) = c := by cases axis <;> rfl

@[simp] theorem size_place : axis.size (axis.place r c) = axis.size r := by cases axis <;> rfl

@[simp] theorem place_place : axis.place (axis.place r c) d = axis.place r d := by
  cases axis <;> rfl

@[simp] theorem place_start : axis.place r (axis.start r) = r := by cases axis <;> rfl

end Axis

/-! ## The order and the gap -/

section

variable (rects : List Rect) (axis : Axis)

def startOf (i : ℕ) : ℚ := (rects[i]?.map axis.start).getD 0

def extentOf (i : ℕ) : ℚ := (rects[i]?.map axis.size).getD 0

/-- The indices, in the order of the axis; the sort is stable. -/
def axisOrder : List ℕ := Leading.sorted (startOf rects axis) (List.range rects.length)

/-- The gap: what is left between both ends, shared. -/
def gapOf : ℚ :=
  let order := axisOrder rects axis
  let first := order.head?.getD 0
  let last := order.getLast?.getD 0
  (startOf rects axis last + extentOf rects axis last - startOf rects axis first -
    (rects.map axis.size).sum) / (rects.length - 1)

/-- How far the next rectangle starts. -/
def stepOf (i : ℕ) : ℚ := extentOf rects axis i + gapOf rects axis

end

/-! ## What is asked of a distribution -/

section

variable (axis : Axis) (rects out : List Rect)

/-- The rectangles have moved along the axis only, the first and the last have not, and the gaps are
equal. -/
structure Distributed : Prop where
  length_eq : out.length = rects.length
  /-- The other axis and the sizes are unchanged. -/
  moved : ∀ (i : ℕ) r, rects[i]? = some r → ∃ c, out[i]? = some (axis.place r c)
  first : ∀ i ∈ (axisOrder rects axis).head?, out[i]? = rects[i]?
  last : ∀ i ∈ (axisOrder rects axis).getLast?, out[i]? = rects[i]?
  gaps : ∃ gap, (axisOrder rects axis).IsChain fun i j ↦
    startOf out axis j = startOf out axis i + extentOf out axis i + gap

/-- The positions are still in the order of the axis. -/
def Ordered : Prop :=
  (axisOrder rects axis).Pairwise fun i j ↦ startOf out axis i ≤ startOf out axis j

/-- Every rectangle is between the start of the first and the end of the last. -/
def Contained : Prop :=
  ∀ first ∈ (axisOrder rects axis).head?, ∀ last ∈ (axisOrder rects axis).getLast?,
    ∀ i ∈ axisOrder rects axis, startOf rects axis first ≤ startOf out axis i ∧
      startOf out axis i + extentOf out axis i ≤ startOf rects axis last + extentOf rects axis last

end

variable {axis : Axis} {rects result out : List Rect} {gap cursor : ℚ} {order : List ℕ} {i k : ℕ}

theorem axisOrder_perm (rects : List Rect) (axis : Axis) :
    (axisOrder rects axis).Perm (List.range rects.length) := Leading.sorted_perm _ _

theorem nodup_axisOrder (rects : List Rect) (axis : Axis) : (axisOrder rects axis).Nodup :=
  (axisOrder_perm rects axis).nodup_iff.mpr List.nodup_range

theorem mem_axisOrder : i ∈ axisOrder rects axis ↔ i < rects.length :=
  Leading.mem_sorted.trans List.mem_range

theorem length_axisOrder (rects : List Rect) (axis : Axis) :
    (axisOrder rects axis).length = rects.length := by
  rw [(axisOrder_perm rects axis).length_eq, List.length_range]

theorem sum_extentOf_axisOrder (rects : List Rect) (axis : Axis) :
    ((axisOrder rects axis).map (extentOf rects axis)).sum = (rects.map axis.size).sum := by
  have hrange : (List.range rects.length).map (extentOf rects axis) = rects.map axis.size := by
    refine List.ext_getElem? fun i ↦ ?_
    rw [List.getElem?_map, List.getElem?_map]
    by_cases hi : i < rects.length
    · rw [List.getElem?_range hi, List.getElem?_eq_getElem hi, Option.map_some, Option.map_some,
        extentOf, List.getElem?_eq_getElem hi, Option.map_some, Option.getD_some]
    · rw [List.getElem?_eq_none (by simpa using hi), List.getElem?_eq_none (not_lt.mp hi)]
      rfl
  rw [((axisOrder_perm rects axis).map _).sum_eq, hrange]

/-! ## The loop -/

theorem extentOf_set (hi : rects[i]? = some r) (c : ℚ) :
    extentOf (rects.set i (axis.place r c)) axis = extentOf rects axis := by
  funext j
  rw [extentOf, extentOf, List.getElem?_set]
  split
  · rename_i hij
    subst hij
    rw [hi]
    split
    · rw [Option.map_some, Option.map_some, axis.size_place]
    · rename_i hlt
      exact absurd (List.getElem?_eq_some_iff.mp hi).1 hlt
  · rfl

/-- **The loop**: each rectangle of the order is placed after the steps of those before it, and the
others are left where they are. -/
theorem spread_getElem? (hnodup : order.Nodup) (hvalid : ∀ i ∈ order, i < result.length) :
    (∀ i ∉ order, (spread axis gap order cursor result)[i]? = result[i]?) ∧
      ∀ k i, order[k]? = some i → (spread axis gap order cursor result)[i]? =
        result[i]?.map fun r ↦ axis.place r
          (cursor + ((order.take k).map fun j ↦ extentOf result axis j + gap).sum) := by
  induction order generalizing cursor result with
  | nil => exact ⟨fun _ _ ↦ rfl, fun k i h ↦ absurd h (by simp)⟩
  | cons j order ih =>
    obtain ⟨hj, hnodup⟩ := List.nodup_cons.mp hnodup
    obtain ⟨hlt, hvalid⟩ := List.forall_mem_cons.mp hvalid
    have hr := List.getElem?_eq_getElem hlt
    generalize result[j] = r at hr
    -- the first is placed at the cursor, which goes on by its extent and the gap
    obtain ⟨hothers, hplaced⟩ := @ih (result.set j (axis.place r cursor))
      (cursor + (axis.size r + gap)) hnodup (by simpa using hvalid)
    rw [extentOf_set hr] at hplaced
    have hextent : extentOf result axis j = axis.size r := by
      rw [extentOf, hr, Option.map_some, Option.getD_some]
    rw [spread, hr]
    dsimp only
    refine ⟨fun i hi ↦ ?_, fun k i hk ↦ ?_⟩
    · obtain ⟨hne, hi⟩ := not_or.mp (List.mem_cons.not.mp hi)
      rw [hothers i hi, List.getElem?_set_ne (Ne.symm hne)]
    · cases k with
      | zero =>
        obtain rfl := Option.some.inj hk
        rw [hothers j hj, List.getElem?_set_self hlt, hr, List.take_zero, List.map_nil,
          List.sum_nil, add_zero, Option.map_some]
      | succ k =>
        have hk' : order[k]? = some i := hk
        have hne : j ≠ i := fun heq ↦ hj (heq ▸ List.mem_of_getElem? hk')
        rw [hplaced k i hk', List.getElem?_set_ne hne, List.take_succ_cons, List.map_cons,
          List.sum_cons, hextent, add_assoc]

/-! ## Where the rectangles are placed -/

section

variable {first last : ℕ}

theorem exists_ends (h : 3 ≤ rects.length) (axis : Axis) : ∃ first last,
    (axisOrder rects axis).head? = some first ∧ (axisOrder rects axis).getLast? = some last := by
  have hne : axisOrder rects axis ≠ [] := by
    refine List.ne_nil_of_length_pos ?_
    rw [length_axisOrder]
    omega
  exact ⟨_, _, List.head?_eq_some_head hne, List.getLast?_eq_some_getLast hne⟩

variable (h : 3 ≤ rects.length) (hfirst : (axisOrder rects axis).head? = some first)
  (hlast : (axisOrder rects axis).getLast? = some last)

include hfirst hlast

theorem gapOf_eq : gapOf rects axis =
    (startOf rects axis last + extentOf rects axis last - startOf rects axis first -
      (rects.map axis.size).sum) / (rects.length - 1) := by
  rw [gapOf, hfirst, hlast]
  rfl

include h

theorem distributeRects_eq : distributeRects rects axis =
    spread axis (gapOf rects axis) (axisOrder rects axis) (startOf rects axis first) rects := by
  have hfirstLt : first < rects.length := mem_axisOrder.mp (List.mem_of_head? hfirst)
  have hlastLt : last < rects.length := mem_axisOrder.mp (List.mem_of_getLast? hlast)
  have hfirstAt := List.getElem?_eq_getElem hfirstLt
  have hlastAt := List.getElem?_eq_getElem hlastLt
  have hfirstOrder : (axisOrder rects axis).head?.bind (rects[·]?) = some rects[first] := by
    rw [hfirst, Option.bind_some, hfirstAt]
  have hlastOrder : (axisOrder rects axis).getLast?.bind (rects[·]?) = some rects[last] := by
    rw [hlast, Option.bind_some, hlastAt]
  rw [gapOf_eq hfirst hlast, startOf, startOf, extentOf, hfirstAt, hlastAt, distributeRects,
    if_neg (by omega)]
  dsimp only
  split
  · rename_i hhead hend
    obtain rfl := Option.some.inj (hfirstOrder.symm.trans hhead)
    obtain rfl := Option.some.inj (hlastOrder.symm.trans hend)
    rfl
  · rename_i hnone
    exact absurd hlastOrder (hnone _ _ hfirstOrder)

theorem getElem?_distributeRects (hk : (axisOrder rects axis)[k]? = some i) :
    (distributeRects rects axis)[i]? = rects[i]?.map fun r ↦ axis.place r
      (startOf rects axis first +
        (((axisOrder rects axis).take k).map (stepOf rects axis)).sum) := by
  rw [distributeRects_eq h hfirst hlast]
  exact (spread_getElem? (nodup_axisOrder rects axis) fun i hi ↦ mem_axisOrder.mp hi).2 k i hk

theorem sum_stepOf : ((axisOrder rects axis).map (stepOf rects axis)).sum =
    startOf rects axis last + extentOf rects axis last - startOf rects axis first +
      gapOf rects axis := by
  have hsplit : ((axisOrder rects axis).map (stepOf rects axis)).sum =
      (rects.map axis.size).sum + rects.length * gapOf rects axis := by
    have hadd := List.sum_map_add (l := axisOrder rects axis) (f := extentOf rects axis)
      (g := fun _ ↦ gapOf rects axis)
    rw [sum_extentOf_axisOrder, List.map_const', List.sum_replicate, length_axisOrder,
      nsmul_eq_mul] at hadd
    exact hadd
  have hgap : gapOf rects axis * (rects.length - 1) =
      startOf rects axis last + extentOf rects axis last - startOf rects axis first -
        (rects.map axis.size).sum := by
    have hthree : (3 : ℚ) ≤ rects.length := by exact_mod_cast h
    rw [gapOf_eq hfirst hlast, div_mul_cancel₀]
    linarith
  rw [hsplit]
  linarith

theorem sum_take_add_stepOf (hk : (axisOrder rects axis)[k]? = some i) :
    (((axisOrder rects axis).take k).map (stepOf rects axis)).sum + stepOf rects axis i +
      (((axisOrder rects axis).drop (k + 1)).map (stepOf rects axis)).sum =
    startOf rects axis last + extentOf rects axis last - startOf rects axis first +
      gapOf rects axis := by
  obtain ⟨hlt, hi⟩ := List.getElem?_eq_some_iff.mp hk
  rw [← sum_stepOf h hfirst hlast, ← hi, add_assoc, ← List.sum_cons, ← List.map_cons,
    ← List.drop_eq_getElem_cons hlt, ← List.sum_append, ← List.map_append, List.take_append_drop]

theorem startOf_distributeRects (hk : (axisOrder rects axis)[k]? = some i) :
    startOf (distributeRects rects axis) axis i = startOf rects axis first +
      (((axisOrder rects axis).take k).map (stepOf rects axis)).sum := by
  have hlt : i < rects.length := mem_axisOrder.mp (List.mem_of_getElem? hk)
  rw [startOf, getElem?_distributeRects h hfirst hlast hk, List.getElem?_eq_getElem hlt,
    Option.map_some, Option.map_some, Option.getD_some, axis.start_place]

end

theorem length_spread (order : List ℕ) (cursor : ℚ) (result : List Rect) :
    (spread axis gap order cursor result).length = result.length := by
  induction order generalizing cursor result with
  | nil => rfl
  | cons i order ih =>
    rw [spread]
    split
    · exact ih _ _
    · rw [ih, List.length_set]

theorem length_distributeRects (h : 3 ≤ rects.length) :
    (distributeRects rects axis).length = rects.length := by
  obtain ⟨first, last, hfirst, hlast⟩ := exists_ends h axis
  rw [distributeRects_eq h hfirst hlast, length_spread]

theorem exists_place (axis : Axis) (h : 3 ≤ rects.length) (hi : rects[i]? = some r) :
    ∃ c, (distributeRects rects axis)[i]? = some (axis.place r c) := by
  obtain ⟨first, last, hfirst, hlast⟩ := exists_ends h axis
  have hmem : i ∈ axisOrder rects axis :=
    mem_axisOrder.mpr (List.getElem?_eq_some_iff.mp hi).1
  obtain ⟨k, hk⟩ := List.getElem?_of_mem hmem
  rw [getElem?_distributeRects h hfirst hlast hk, hi]
  exact ⟨_, rfl⟩

theorem map_size_distributeRects (h : 3 ≤ rects.length) :
    (distributeRects rects axis).map axis.size = rects.map axis.size := by
  refine List.ext_getElem? fun i ↦ ?_
  rw [List.getElem?_map, List.getElem?_map]
  cases hi : rects[i]? with
  | none =>
    have hlength := List.getElem?_eq_none_iff.mp hi
    rw [← length_distributeRects h] at hlength
    rw [List.getElem?_eq_none hlength]
  | some r =>
    obtain ⟨c, hc⟩ := exists_place axis h hi
    rw [hc, Option.map_some, Option.map_some, axis.size_place]

theorem extentOf_distributeRects (h : 3 ≤ rects.length) :
    extentOf (distributeRects rects axis) axis = extentOf rects axis := by
  funext i
  rw [extentOf, extentOf, ← List.getElem?_map, ← List.getElem?_map, map_size_distributeRects h]

/-! ## The distribution -/

theorem isChain_iff_dropLast {α : Type*} {S R : α → α → Prop} {P : α → Prop} {l : List α}
    (hchain : l.IsChain S) (h : ∀ i j, S i j → (R i j ↔ P i)) :
    l.IsChain R ↔ ∀ i ∈ l.dropLast, P i := by
  induction l with
  | nil => simp
  | cons i l ih =>
    cases l with
    | nil => simp
    | cons j l =>
      obtain ⟨hij, hrest⟩ := List.isChain_cons_cons.mp hchain
      rw [List.isChain_cons_cons, List.dropLast_cons_cons, List.forall_mem_cons, h i j hij,
        ih hrest]

section

variable {first last : ℕ} (h : 3 ≤ rects.length)

include h

theorem isChain_startOf : (axisOrder rects axis).IsChain fun i j ↦
    startOf (distributeRects rects axis) axis j =
      startOf (distributeRects rects axis) axis i + stepOf rects axis i := by
  obtain ⟨first, last, hfirst, hlast⟩ := exists_ends h axis
  refine List.isChain_iff_getElem.mpr fun k hk ↦ ?_
  have hnext := List.getElem?_eq_getElem hk
  have hthis := List.getElem?_eq_getElem (Nat.lt_of_succ_lt hk)
  rw [startOf_distributeRects h hfirst hlast hnext, startOf_distributeRects h hfirst hlast hthis,
    List.take_succ_eq_append_getElem (Nat.lt_of_succ_lt hk), List.map_append, List.sum_append,
    List.map_singleton, List.sum_singleton, add_assoc]

theorem ordered_iff : Ordered axis rects (distributeRects rects axis) ↔
    ∀ i ∈ (axisOrder rects axis).dropLast, 0 ≤ stepOf rects axis i := by
  rw [Ordered, ← List.isChain_iff_pairwise]
  refine isChain_iff_dropLast (isChain_startOf h) fun i j hij ↦ ?_
  rw [hij, le_add_iff_nonneg_right]

theorem axisOrder_distributeRects
    (hsteps : ∀ i ∈ (axisOrder rects axis).dropLast, 0 < stepOf rects axis i) :
    axisOrder (distributeRects rects axis) axis = axisOrder rects axis := by
  have hchain : (axisOrder rects axis).IsChain fun i j ↦
      startOf (distributeRects rects axis) axis i <
        startOf (distributeRects rects axis) axis j := by
    refine (isChain_iff_dropLast (isChain_startOf h) fun i j hij ↦ ?_).mpr hsteps
    rw [hij, lt_add_iff_pos_right]
  refine Leading.sorted_eq (List.isChain_iff_pairwise.mp hchain) ?_
  rw [length_distributeRects h]
  exact axisOrder_perm rects axis

variable (hfirst : (axisOrder rects axis).head? = some first)
  (hlast : (axisOrder rects axis).getLast? = some last)

include hfirst hlast

/-- The end of a rectangle is before the end of the last by the steps that follow. -/
theorem end_distributeRects (hk : (axisOrder rects axis)[k]? = some i) :
    startOf (distributeRects rects axis) axis i + extentOf rects axis i =
      startOf rects axis last + extentOf rects axis last -
        (((axisOrder rects axis).drop (k + 1)).map (stepOf rects axis)).sum := by
  have hsum := sum_take_add_stepOf h hfirst hlast hk
  rw [startOf_distributeRects h hfirst hlast hk]
  rw [stepOf] at hsum
  linarith

theorem startOf_last :
    startOf (distributeRects rects axis) axis last = startOf rects axis last := by
  have hk : (axisOrder rects axis)[(axisOrder rects axis).length - 1]? = some last := by
    rw [← List.getLast?_eq_getElem?, hlast]
  have hlength : (axisOrder rects axis).length - 1 + 1 = (axisOrder rects axis).length := by
    rw [length_axisOrder]
    omega
  have hend := end_distributeRects h hfirst hlast hk
  rw [hlength, List.drop_length, List.map_nil, List.sum_nil, sub_zero] at hend
  exact add_right_cancel hend

theorem startOf_first :
    startOf (distributeRects rects axis) axis first = startOf rects axis first := by
  have hk : (axisOrder rects axis)[0]? = some first := by
    rw [← List.head?_eq_getElem?, hfirst]
  rw [startOf_distributeRects h hfirst hlast hk, List.take_zero, List.map_nil, List.sum_nil,
    add_zero]

omit hfirst hlast in
theorem getElem?_eq_of_startOf_eq (hi : i < rects.length)
    (heq : startOf (distributeRects rects axis) axis i = startOf rects axis i) :
    (distributeRects rects axis)[i]? = rects[i]? := by
  have hr := List.getElem?_eq_getElem hi
  obtain ⟨c, hc⟩ := exists_place axis h hr
  rw [startOf, startOf, hc, hr, Option.map_some, Option.map_some, Option.getD_some,
    Option.getD_some, axis.start_place] at heq
  rw [hc, hr, heq, axis.place_start]

theorem contained_iff : Contained axis rects (distributeRects rects axis) ↔
    ∀ (k : ℕ) i, (axisOrder rects axis)[k]? = some i →
      0 ≤ (((axisOrder rects axis).take k).map (stepOf rects axis)).sum ∧
        0 ≤ (((axisOrder rects axis).drop (k + 1)).map (stepOf rects axis)).sum := by
  have hplace : ∀ (k : ℕ) i, (axisOrder rects axis)[k]? = some i →
      ((startOf rects axis first ≤ startOf (distributeRects rects axis) axis i ∧
        startOf (distributeRects rects axis) axis i +
          extentOf (distributeRects rects axis) axis i ≤
            startOf rects axis last + extentOf rects axis last) ↔
      0 ≤ (((axisOrder rects axis).take k).map (stepOf rects axis)).sum ∧
        0 ≤ (((axisOrder rects axis).drop (k + 1)).map (stepOf rects axis)).sum) := by
    intro k i hk
    rw [extentOf_distributeRects h, end_distributeRects h hfirst hlast hk, sub_le_self_iff,
      startOf_distributeRects h hfirst hlast hk, le_add_iff_nonneg_right]
  constructor
  · intro hcontained k i hk
    exact (hplace k i hk).mp (hcontained first hfirst last hlast i (List.mem_of_getElem? hk))
  · intro hsteps first' hfirst' last' hlast' i hi
    obtain rfl := Option.some.inj (hfirst.symm.trans hfirst')
    obtain rfl := Option.some.inj (hlast.symm.trans hlast')
    obtain ⟨k, hk⟩ := List.getElem?_of_mem hi
    exact (hplace k i hk).mpr (hsteps k i hk)

/-- **A second distribution in the same order changes nothing.** -/
theorem distributeRects_distributeRects
    (horder : axisOrder (distributeRects rects axis) axis = axisOrder rects axis) :
    distributeRects (distributeRects rects axis) axis = distributeRects rects axis := by
  have hlength : (distributeRects rects axis).length = rects.length := length_distributeRects h
  have h' : 3 ≤ (distributeRects rects axis).length := hlength.symm ▸ h
  have hfirst' : (axisOrder (distributeRects rects axis) axis).head? = some first :=
    horder.symm ▸ hfirst
  have hlast' : (axisOrder (distributeRects rects axis) axis).getLast? = some last :=
    horder.symm ▸ hlast
  have hgap : gapOf (distributeRects rects axis) axis = gapOf rects axis := by
    rw [gapOf_eq hfirst' hlast', gapOf_eq hfirst hlast, startOf_last h hfirst hlast,
      startOf_first h hfirst hlast, extentOf_distributeRects h, map_size_distributeRects h, hlength]
  have hstep : stepOf (distributeRects rects axis) axis = stepOf rects axis := by
    funext i
    rw [stepOf, stepOf, extentOf_distributeRects h, hgap]
  refine List.ext_getElem? fun i ↦ ?_
  rcases Nat.lt_or_ge i rects.length with hi | hi
  · obtain ⟨k, hk⟩ := List.getElem?_of_mem (mem_axisOrder.mpr hi : i ∈ axisOrder rects axis)
    have hk' : (axisOrder (distributeRects rects axis) axis)[k]? = some i := horder.symm ▸ hk
    rw [getElem?_distributeRects h' hfirst' hlast' hk', horder, hstep,
      startOf_first h hfirst hlast, getElem?_distributeRects h hfirst hlast hk,
      List.getElem?_eq_getElem hi, Option.map_some, Option.map_some, axis.place_place]
  · rw [List.getElem?_eq_none (hlength.trans_le hi),
      List.getElem?_eq_none ((length_distributeRects h').trans_le (hlength.trans_le hi))]

end

/-- What a distribution does, and what else is kept for which steps. -/
structure DistributionLaw (axis : Axis) (rects : List Rect) : Prop where
  distributed : Distributed axis rects (distributeRects rects axis)
  ordered : Ordered axis rects (distributeRects rects axis) ↔
    ∀ i ∈ (axisOrder rects axis).dropLast, 0 ≤ stepOf rects axis i
  contained : Contained axis rects (distributeRects rects axis) ↔
    ∀ (k : ℕ) i, (axisOrder rects axis)[k]? = some i →
      0 ≤ (((axisOrder rects axis).take k).map (stepOf rects axis)).sum ∧
        0 ≤ (((axisOrder rects axis).drop (k + 1)).map (stepOf rects axis)).sum
  idempotent : axisOrder (distributeRects rects axis) axis = axisOrder rects axis →
    distributeRects (distributeRects rects axis) axis = distributeRects rects axis
  forward : (∀ i ∈ (axisOrder rects axis).dropLast, 0 < stepOf rects axis i) →
    axisOrder (distributeRects rects axis) axis = axisOrder rects axis

/-- **The distribution law.** The first and the last rectangle stay where they are, all gaps are
equal, and nothing but the positions changes. The order is kept where no step but the last is
negative, all is between both ends where no steps before or after a rectangle add up to less than
nothing, and a second distribution changes nothing where the order is the same, as it is where
every step but the last goes forward. -/
theorem distributionLaw (axis : Axis) (rects : List Rect) (h : 3 ≤ rects.length) :
    DistributionLaw axis rects := by
  obtain ⟨first, last, hfirst, hlast⟩ := exists_ends h axis
  refine ⟨⟨length_distributeRects h, fun i r hi ↦ exists_place axis h hi, ?_, ?_, ?_⟩,
    ordered_iff h, contained_iff h hfirst hlast, distributeRects_distributeRects h hfirst hlast,
    axisOrder_distributeRects h⟩
  · intro i hi
    obtain rfl := Option.some.inj (hfirst.symm.trans hi)
    exact getElem?_eq_of_startOf_eq h (mem_axisOrder.mp (List.mem_of_head? hfirst))
      (startOf_first h hfirst hlast)
  · intro i hi
    obtain rfl := Option.some.inj (hlast.symm.trans hi)
    exact getElem?_eq_of_startOf_eq h (mem_axisOrder.mp (List.mem_of_getLast? hlast))
      (startOf_last h hfirst hlast)
  · refine ⟨gapOf rects axis, (isChain_startOf h).imp fun i j hij ↦ ?_⟩
    rw [hij, stepOf, extentOf_distributeRects h, add_assoc]

/-- Three rectangles, of which the list has the last one first. -/
def shuffled : List Rect := [⟨100, 0, 10, 10⟩, ⟨0, 0, 10, 10⟩, ⟨30, 0, 10, 10⟩]

theorem distributionLaw_shuffled : DistributionLaw .horizontal shuffled :=
  distributionLaw .horizontal shuffled (by decide)

/-- A large rectangle between two small ones. -/
def overlapping : List Rect := [⟨0, 0, 1, 1⟩, ⟨1, 0, 100, 1⟩, ⟨2, 0, 1, 1⟩]

/-- **Rectangles that overlap**: the second one is placed before the first. -/
theorem not_distributed : ¬∀ (axis : Axis) (rects : List Rect), 3 ≤ rects.length →
    Distributed axis rects (distributeRects rects axis) ∧
      Ordered axis rects (distributeRects rects axis) ∧
      Contained axis rects (distributeRects rects axis) ∧
      distributeRects (distributeRects rects axis) axis = distributeRects rects axis := by
  intro h
  have hthree : 3 ≤ overlapping.length := by decide
  have hsteps := (ordered_iff hthree).mp (h .horizontal overlapping hthree).2.1
  exact absurd hsteps (by decide +kernel)

end Superviseur.Editor
