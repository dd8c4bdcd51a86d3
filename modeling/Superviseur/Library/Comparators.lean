import Superviseur.Library.Leading
import Mathlib.Data.Prod.Lex

/-!
# Comparison functions

Many languages sort by a function that returns a number: negative where the first argument comes
first, positive where the second does, zero where none does. Such functions are made of criteria:
the next one decides where the number of the first is zero.

A comparison that reflects a key is one whose numbers say how the keys compare. Chains of criteria
then reflect lexicographic keys, and sorting by the comparison is sorting by the key.
-/

namespace Comparators

variable {α κ κ' : Type*} [LinearOrder κ] [LinearOrder κ']

/-- The next criterion decides where the first does not. -/
def orElse (x y : ℤ) : ℤ := if x ≠ 0 then x else y

/-- On the elements that satisfy `P`, the numbers of `cmp` say how the keys compare. -/
structure Reflects (P : α → Prop) (key : α → κ) (cmp : α → α → ℤ) : Prop where
  neg_iff : ∀ {a b}, P a → P b → (cmp a b < 0 ↔ key a < key b)
  zero_iff : ∀ {a b}, P a → P b → (cmp a b = 0 ↔ key a = key b)

namespace Reflects

variable {P : α → Prop} {key : α → κ} {key' : α → κ'} {cmp cmp' : α → α → ℤ} {a b c : α}

/-! ## Criteria -/

theorem sub (P : α → Prop) (f : α → ℤ) : Reflects P (fun a ↦ -f a) fun a b ↦ f b - f a where
  neg_iff _ _ := by omega
  zero_iff _ _ := by omega

/-- **A chain of two criteria reflects the pair of their keys.** -/
theorem orElse (h : Reflects P key cmp) (h' : Reflects P key' cmp') :
    Reflects P (fun a ↦ toLex (key a, key' a)) fun a b ↦
      Comparators.orElse (cmp a b) (cmp' a b) where
  neg_iff {a b} ha hb := by
    rw [Prod.Lex.toLex_lt_toLex, ← h.neg_iff ha hb, ← h.zero_iff ha hb, ← h'.neg_iff ha hb,
      Comparators.orElse]
    by_cases hzero : cmp a b = 0
    · rw [if_neg (not_not.mpr hzero), hzero]
      simp
    · rw [if_pos hzero]
      simp [hzero]
  zero_iff {a b} ha hb := by
    rw [toLex_inj, Prod.mk.injEq, ← h.zero_iff ha hb, ← h'.zero_iff ha hb, Comparators.orElse]
    by_cases hzero : cmp a b = 0
    · rw [if_neg (not_not.mpr hzero)]
      simp [hzero]
    · rw [if_pos hzero]
      simp [hzero]

theorem comap {β : Type*} {Q : β → Prop} (h : Reflects P key cmp) (f : β → α)
    (hf : ∀ b, Q b → P (f b)) : Reflects Q (fun b ↦ key (f b)) fun a b ↦ cmp (f a) (f b) :=
  ⟨fun ha hb ↦ h.neg_iff (hf _ ha) (hf _ hb), fun ha hb ↦ h.zero_iff (hf _ ha) (hf _ hb)⟩

theorem congr (h : Reflects P key cmp) (heq : ∀ {a b}, P a → P b → cmp' a b = cmp a b) :
    Reflects P key cmp' where
  neg_iff ha hb := by rw [heq ha hb, h.neg_iff ha hb]
  zero_iff ha hb := by rw [heq ha hb, h.zero_iff ha hb]

/-! ## The order -/

variable (h : Reflects P key cmp)
include h

theorem pos_iff (ha : P a) (hb : P b) : 0 < cmp a b ↔ key b < key a := by
  rw [← not_iff_not, not_lt, not_lt, le_iff_lt_or_eq, h.neg_iff ha hb, h.zero_iff ha hb,
    le_iff_lt_or_eq]

theorem nonpos_iff (ha : P a) (hb : P b) : cmp a b ≤ 0 ↔ key a ≤ key b := by
  rw [le_iff_lt_or_eq, h.neg_iff ha hb, h.zero_iff ha hb, le_iff_lt_or_eq]

theorem swap (ha : P a) (hb : P b) : cmp a b < 0 ↔ 0 < cmp b a :=
  (h.neg_iff ha hb).trans (h.pos_iff hb ha).symm

theorem trans (ha : P a) (hb : P b) (hc : P c) (hab : cmp a b < 0) (hbc : cmp b c < 0) :
    cmp a c < 0 :=
  (h.neg_iff ha hc).mpr (((h.neg_iff ha hb).mp hab).trans ((h.neg_iff hb hc).mp hbc))

/-- **Sorting by the comparison is sorting by the key.** -/
theorem insertionSort_eq {l : List α} (hl : ∀ a ∈ l, P a) :
    l.insertionSort (fun a b ↦ cmp a b ≤ 0) = Leading.sorted key l := by
  have hmap := List.map_insertionSort (fun a b ↦ cmp a b ≤ 0) (fun a b ↦ key a ≤ key b) id l
    fun a ha b hb ↦ h.nonpos_iff (hl a ha) (hl b hb)
  rwa [List.map_id, List.map_id] at hmap

end Reflects

/-! ## A comparison that is an order -/

/-- The numbers of `cmp` are those of a strict total order. -/
structure StrictTotal (cmp : α → α → ℤ) : Prop where
  swap : ∀ a b, cmp a b < 0 ↔ 0 < cmp b a
  trans : ∀ a b c, cmp a b < 0 → cmp b c < 0 → cmp a c < 0
  eq_of_zero : ∀ a b, cmp a b = 0 → a = b

namespace StrictTotal

variable {cmp : α → α → ℤ} (h : StrictTotal cmp)
include h

theorem self (a : α) : cmp a a = 0 := by
  have := h.swap a a
  omega

/-- The order it is the comparison of. -/
@[reducible] def linearOrder : LinearOrder α where
  le a b := cmp a b ≤ 0
  lt a b := cmp a b < 0
  le_refl a := (h.self a).le
  le_trans a b c hab hbc := by
    rcases hab.lt_or_eq with hab | hab
    · rcases hbc.lt_or_eq with hbc | hbc
      · exact (h.trans a b c hab hbc).le
      · rw [← h.eq_of_zero b c hbc]
        exact hab.le
    · rwa [h.eq_of_zero a b hab]
  lt_iff_le_not_ge a b := by
    have := h.swap a b
    omega
  le_antisymm a b hab hba := by
    have := h.swap a b
    have := h.swap b a
    exact h.eq_of_zero a b (by omega)
  le_total a b := by
    have := h.swap b a
    omega
  toDecidableLE := fun a b ↦ inferInstanceAs (Decidable (cmp a b ≤ 0))

theorem reflects : @Reflects α α h.linearOrder (fun _ ↦ True) id cmp :=
  letI := h.linearOrder
  ⟨fun _ _ ↦ Iff.rfl, fun {a b} _ _ ↦ ⟨h.eq_of_zero a b, fun heq ↦ by
    rw [id, id] at heq
    rw [heq]
    exact h.self b⟩⟩

end StrictTotal

theorem Reflects.strictTotal {key : α → κ} {cmp : α → α → ℤ}
    (h : Reflects (fun _ ↦ True) key cmp) (hkey : Function.Injective key) : StrictTotal cmp where
  swap _ _ := h.swap trivial trivial
  trans _ _ _ := h.trans trivial trivial trivial
  eq_of_zero _ _ hzero := hkey ((h.zero_iff trivial trivial).mp hzero)

end Comparators
