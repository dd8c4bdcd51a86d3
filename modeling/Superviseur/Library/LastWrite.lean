import Mathlib.Data.List.Induction

/-!
# The last write wins

A list of operations on one place: each writes a value there or leaves it as it is. What the place
holds in the end is the last value written, or what it held before.
-/

namespace LastWrite

variable {ι α : Type*}

/-- What a place holds after operations. -/
def after (effect : ι → Option α) (ops : List ι) (a : α) : α :=
  ops.foldl (fun a op ↦ (effect op).getD a) a

/-- The last value that operations write. -/
def last (effect : ι → Option α) (ops : List ι) : Option α := (ops.filterMap effect).getLast?

variable {effect : ι → Option α} {ops ops' : List ι} {a : α}

theorem last_append (effect : ι → Option α) (ops ops' : List ι) :
    last effect (ops ++ ops') = (last effect ops').or (last effect ops) := by
  rw [last, last, last, List.filterMap_append, List.getLast?_append]

/-- **The last write wins.** -/
theorem after_eq (effect : ι → Option α) (ops : List ι) (a : α) :
    after effect ops a = (last effect ops).getD a := by
  induction ops using List.reverseRecOn with
  | nil => rfl
  | append_singleton ops op ih =>
    have hlast : last effect [op] = effect op := by
      rw [last, List.filterMap_cons, List.filterMap_nil]
      cases effect op <;> rfl
    rw [after, List.foldl_append, List.foldl_cons, List.foldl_nil, last_append, hlast]
    rw [after] at ih
    rw [ih]
    cases effect op <;> rfl

theorem last_eq_none_iff : last effect ops = none ↔ ∀ op ∈ ops, effect op = none := by
  rw [last, List.getLast?_eq_none_iff, List.filterMap_eq_nil_iff]

theorem last_eq_some (h : ∀ op ∈ ops, effect op = none ∨ effect op = some a)
    (hsome : ∃ op ∈ ops, effect op = some a) : last effect ops = some a := by
  obtain ⟨op, hop, hwrite⟩ := hsome
  have hne : ops.filterMap effect ≠ [] :=
    List.ne_nil_of_mem (List.mem_filterMap.mpr ⟨op, hop, hwrite⟩)
  obtain ⟨op', hop', hlast⟩ := List.mem_filterMap.mp (List.getLast_mem hne)
  rw [last, List.getLast?_eq_some_getLast hne, ← hlast]
  exact (h op' hop').resolve_left fun hnone ↦ Option.some_ne_none _ (hlast.symm.trans hnone)

end LastWrite
